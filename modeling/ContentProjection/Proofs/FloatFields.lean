import ContentProjection.Proofs.Cardinality
import ContentProjection.Proofs.FiniteDoubles
import ContentProjection.Proofs.RealScan

/-!
# Numbers in float fields

Text in a float field is read as the longest real behind its leading blanks. It is zero where no
real starts there, and where the real is past the largest double, so that what is read is always
finite and has a text in JSON. A float field therefore shows a number for each of its items; only
a field whose items all store the empty text shows what stands for no value.
-/
namespace ContentProjection

namespace Text.Real

/-- The number without its sign. -/
def Literal.magnitude (l : Literal) : ℚ := l.digits * 10 ^ l.exponent

theorem Literal.toBinary64?_eq_none_iff (l : Literal) :
    l.toBinary64? = none ↔ Binary64.overflow ≤ l.magnitude :=
  Binary64.ofDecimal?_eq_none_iff _ _ _

end Text.Real

namespace Projection

open Text.Real (IsReal LongestReal whole? exists_whole?_iff)

variable {raw s : String}

theorem realAtStart_eq {found : Option String} (h : Text.Real.Scan.number? s = .ok found) :
    realAtStart s = .ok ((found.bind realOfNumber?).getD Binary64.zero) := by
  rw [realAtStart, h]
  cases found <;> rfl

theorem realOf_eq {found : Option String}
    (h : Text.Real.Scan.number? (unindented raw) = .ok found) :
    realOf raw = (found.bind realOfNumber?).getD Binary64.zero := by
  rw [realOf, realAtStart_eq h]

theorem realOfNumber?_eq {number : String} {l : Text.Real.Literal}
    (h : whole? number.toList = some l) : realOfNumber? number = l.toBinary64? := by
  rw [realOfNumber?, h, Option.bind_some]

theorem isFinite_of_realOfNumber? {number : String} {x : Binary64}
    (h : realOfNumber? number = some x) : x.IsFinite := by
  obtain ⟨l, -, hl⟩ := Option.bind_eq_some_iff.1 h
  exact Binary64.isFinite_of_ofDecimal? hl

theorem isFinite_getD_zero {x? : Option Binary64} (h : ∀ x, x? = some x → x.IsFinite) :
    (x?.getD Binary64.zero).IsFinite := by
  cases x? with
  | none => exact Binary64.isFinite_zero false
  | some x => exact h x rfl

/-- How text that is stored in a float field is read. -/
structure ReadsLongestReal (raw : String) : Prop where
  /-- No index of the scan is past the end or inside a character, and the text that it cuts out
  is the longest real. -/
  cuts_longest : ∃ found, Text.Real.Scan.number? (unindented raw) = .ok found ∧
    ∀ number, found = some number ↔ LongestReal number.toList (Text.trimStart raw.toList)
  faultless : realAtStart (unindented raw) = .ok (realOf raw)
  no_real : (∀ number, number <+: Text.trimStart raw.toList → ¬ IsReal number) →
    realOf raw = Binary64.zero
  real : ∀ number, LongestReal number (Text.trimStart raw.toList) →
    ∃ l, whole? number = some l ∧
      (l.magnitude < Binary64.overflow → l.toBinary64? = some (realOf raw)) ∧
      (Binary64.overflow ≤ l.magnitude → realOf raw = Binary64.zero)
  finite : (realOf raw).IsFinite

theorem readsLongestReal (raw : String) : ReadsLongestReal raw := by
  obtain ⟨found, hscan, hfound⟩ := Text.Real.Scan.exists_number? (unindented raw)
  rw [unindented, String.toList_ofList] at hfound
  have hreal := realOf_eq hscan
  constructor
  case cuts_longest => exact ⟨found, hscan, hfound⟩
  case faultless => rw [realAtStart_eq hscan, hreal]
  case no_real =>
    intro hnone
    cases found with
    | none => exact hreal
    | some number =>
      have hlongest := (hfound number).1 rfl
      exact absurd hlongest.isReal (hnone _ hlongest.starts)
  case real =>
    intro number hlongest
    obtain ⟨l, hl⟩ := exists_whole?_iff.2 hlongest.isReal
    have hnumber := (hfound (String.ofList number)).2 (by rwa [String.toList_ofList])
    rw [hnumber, Option.bind_some, realOfNumber?_eq (by rwa [String.toList_ofList])] at hreal
    refine ⟨l, hl, fun hsmall => ?_, fun hlarge => ?_⟩
    · obtain ⟨x, hx⟩ := Option.ne_none_iff_exists'.1 fun hnone =>
        (l.toBinary64?_eq_none_iff.1 hnone).not_gt hsmall
      rw [hreal, hx, Option.getD_some]
    · rw [hreal, l.toBinary64?_eq_none_iff.2 hlarge, Option.getD_none]
  case finite =>
    rw [hreal]
    refine isFinite_getD_zero fun x hx => ?_
    obtain ⟨number, -, hnumber⟩ := Option.bind_eq_some_iff.1 hx
    exact isFinite_of_realOfNumber? hnumber

/-- What is read has a text in JSON. -/
theorem ofReal_realOf (raw : String) : Json.ofReal (realOf raw) = .float (realOf raw) :=
  if_pos (readsLongestReal raw).finite

end Projection

/-- Some item stores text that is not empty. -/
def HasText (items : List Item) : Prop := ∃ item ∈ items, item.scalar ≠ ""

theorem Rendering.hasValue_float_iff {items : List Item} :
    Rendering.float.HasValue items ↔ HasText items := by
  simp [HasValue, isComputed, lacksValue, HasText]

namespace Projector

/-- What a float definition shows for the items of an entity: the number of every item or of the
first one, and what stands for no value if no item has text. -/
structure ShowsReals (ctx : Context) (e : Entity) (d : FieldDefinition) (value? : Option Json) :
    Prop where
  every_item : HasText (e.field d.name) → d.multiple = true →
    value? = some (.arr ((e.field d.name).map fun item => .float (Projection.realOf item.scalar)))
  first_item : HasText (e.field d.name) → d.multiple = false →
    ∀ first rest, e.field d.name = first :: rest →
      value? = some (.float (Projection.realOf first.scalar))
  never_null : HasText (e.field d.name) →
    value? ≠ some .null ∧ ∀ values, value? = some (.arr values) → .null ∉ values
  without_text : ¬ HasText (e.field d.name) → value? =
    match e.kind, ctx.allowList with
    | .node, none => some .null
    | .node, some _ => none
    | .taxonomyTerm, _ => some (.str "")

variable {p : Projector Id} {ctx : Context} {shown : Entity → Json.Object} {e : Entity}
  {d : FieldDefinition} {value? : Option Json}

theorem alone_float (item : Item) :
    p.alone ctx shown e d .float item = .float (Projection.realOf item.scalar) := by
  rw [alone_eq p ctx shown (by decide), ← Projection.ofReal_realOf]
  rfl

theorem FollowsCardinality.showsReals (h : p.FollowsCardinality ctx shown e d .float value?) :
    ShowsReals ctx e d value? := by
  have hevery (hv : HasText (e.field d.name)) (hm : d.multiple = true) : value? =
      some (.arr ((e.field d.name).map fun item => .float (Projection.realOf item.scalar))) := by
    rw [h.every_item (Rendering.hasValue_float_iff.2 hv) hm rfl, funext alone_float]
  have hfirst (hv : HasText (e.field d.name)) (hm : d.multiple = false) (first : Item)
      (rest : List Item) (hitems : e.field d.name = first :: rest) :
      value? = some (.float (Projection.realOf first.scalar)) := by
    rw [h.first_item (Rendering.hasValue_float_iff.2 hv) hm first rest hitems, alone_float]
  constructor
  case every_item => exact hevery
  case first_item => exact hfirst
  case never_null =>
    intro hv
    cases hm : d.multiple with
    | true =>
      rw [hevery hv hm]
      refine ⟨by simp, fun values hvalues hnull => ?_⟩
      cases hvalues
      obtain ⟨item, -, hitem⟩ := List.mem_map.1 hnull
      cases hitem
    | false =>
      have hne : e.field d.name ≠ [] := by
        obtain ⟨item, hitem, -⟩ := hv
        exact List.ne_nil_of_mem hitem
      obtain ⟨first, rest, hitems⟩ := List.exists_cons_of_ne_nil hne
      rw [hfirst hv hm first rest hitems]
      exact ⟨by simp, fun values hvalues => by cases hvalues⟩
  case without_text =>
    intro hnone
    exact h.without_value (Rendering.hasValue_float_iff.not.2 hnone)

variable (p ctx)

/-- What a definition contributes to a projection of an entity. -/
def contributed (e : Entity) (d : FieldDefinition) : Option Json :=
  (p.field? ctx (fun target => pure (.obj (p.shownBehind ctx target))) e d).run

theorem contributed_eq_none (h : ¬ ctx.Admits e.kind d.name) : p.contributed ctx e d = none := by
  rw [Context.admits_iff, Bool.not_eq_false] at h
  rw [contributed, field?, if_pos h]
  rfl

/-- What is contributed under a name that is defined once is what a projection shows there. -/
theorem get?_run_project_of_defined_once
    (honce : (p.storage.fieldDefinitions e.kind e.bundle).run.filter
      (fun other => other.name == d.name) = [d])
    (h : ctx.Admits e.kind d.name) {r : Rendering} (hr : Rendering.ofType? d.type = some r) :
    (p.project ctx e).run.get? d.name = p.contributed ctx e d := by
  rw [run_project, p.get?_run_object_of_admitted ctx _ honce h hr]
  rfl

theorem showsReals_contributed (h : ctx.Admits e.kind d.name) (hd : d.type = .float) :
    ShowsReals ctx e d (p.contributed ctx e d) :=
  (p.followsCardinality_field? ctx _ h (by rw [hd]; rfl)).showsReals

end Projector

variable (s : Storage Id) (offset : Calendar.Offset) (ctx : Context) (e : Entity)

/-- Stored text is read as its longest real, and a float field shows what is read of its items. -/
theorem Storage.shows_longest_reals :
    (∀ raw, Projection.ReadsLongestReal raw) ∧
    ∃ object, s.Projects offset ctx e object ∧ ∀ d, d.type = .float →
      (¬ ctx.Admits e.kind d.name → Projector.contributed ⟨s, offset⟩ ctx e d = none) ∧
      (ctx.Admits e.kind d.name →
        Projector.ShowsReals ctx e d (Projector.contributed ⟨s, offset⟩ ctx e d) ∧
        ((s.fieldDefinitions e.kind e.bundle).run.filter (fun other => other.name == d.name) = [d] →
          object.get? d.name = Projector.contributed ⟨s, offset⟩ ctx e d)) := by
  refine ⟨Projection.readsLongestReal, _, Storage.projects_iff.2 rfl, fun d hd => ⟨?_, ?_⟩⟩
  · exact Projector.contributed_eq_none ⟨s, offset⟩ ctx
  · intro h
    refine ⟨Projector.showsReals_contributed ⟨s, offset⟩ ctx h hd, fun honce => ?_⟩
    exact Projector.get?_run_project_of_defined_once ⟨s, offset⟩ ctx honce h (by rw [hd]; rfl)

def scores : FieldDefinition := ⟨"field_scores", .float, true⟩

def lastScore : FieldDefinition := ⟨"field_last_score", .float, false⟩

/-- A page with two scores, the first of them stored as the empty text, as is the last score. -/
def scored : NodeRecord where
  id := 1
  uuid := Uuid.repeating 0
  bundle := "page"
  title := ""
  published := true
  created := 0
  changed := none
  fields := [(scores.name, [.value "", .value " 1.5e3 stars"]), (lastScore.name, [.value ""])]

def scoredStorage : Storage Id :=
  (Store.ofDump { Dump.empty with
    nodeBundles := [("page", [scores, lastScore])]
    nodes := [scored] } "").answers

theorem scored_shows_longest_reals :
    ∃ object, scoredStorage.Projects .utc Context.default scored.entity object ∧
      object.get? scores.name = some (.arr [.float Binary64.zero,
        .float ⟨false, 6597069766656000, -42⟩]) := by
  obtain ⟨-, object, hprojects, hfields⟩ :=
    scoredStorage.shows_longest_reals .utc Context.default scored.entity
  obtain ⟨hshows, hobject⟩ := (hfields scores rfl).2
    (Context.admits_of_no_allowList rfl _ (by decide))
  have hitems : scored.entity.field scores.name = [.value "", .value " 1.5e3 stars"] := by
    decide +kernel
  have hblank : Projection.realOf "" = Binary64.zero := by decide +kernel
  have hread : Projection.realOf " 1.5e3 stars" = ⟨false, 6597069766656000, -42⟩ := by
    decide +kernel
  have htext : HasText (scored.entity.field scores.name) := by
    rw [hitems]
    exact ⟨.value " 1.5e3 stars", by simp, by decide⟩
  refine ⟨object, hprojects, ?_⟩
  rw [hobject (by decide +kernel), hshows.every_item htext rfl, hitems, List.map_cons,
    List.map_singleton, Item.scalar, Item.scalar, hblank, hread]

/-- The last score is stored and is shown as `null`, though its text is read as zero. -/
theorem scored_shows_null :
    lastScore ∈ (scoredStorage.fieldDefinitions .node "page").run ∧
    scored.entity.field lastScore.name = [.value ""] ∧
    Projection.realOf "" = Binary64.zero ∧
    ∃ object, scoredStorage.Projects .utc Context.default scored.entity object ∧
      object.get? lastScore.name = some .null := by
  have hitems : scored.entity.field lastScore.name = [.value ""] := by decide +kernel
  have hdefined : (scoredStorage.fieldDefinitions .node "page").run.filter
      (fun other => other.name == lastScore.name) = [lastScore] := by decide +kernel
  have hadmits : Context.default.Admits scored.entity.kind lastScore.name :=
    Context.admits_of_no_allowList rfl _ (by decide)
  have hshows := Projector.showsReals_contributed ⟨scoredStorage, .utc⟩ _ hadmits rfl
  have hobject := Projector.get?_run_project_of_defined_once ⟨scoredStorage, .utc⟩ _ hdefined
    hadmits rfl
  refine ⟨?_, hitems, by decide +kernel, _, Storage.projects_iff.2 rfl, hobject.trans ?_⟩
  · exact (List.mem_filter.1 (hdefined ▸ List.mem_singleton_self _)).1
  · apply hshows.without_text
    rw [hitems]
    simp [HasText, Item.scalar]

end ContentProjection
