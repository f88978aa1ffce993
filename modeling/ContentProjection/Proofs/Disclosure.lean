import ContentProjection.Proofs.DraftProjection
import ContentProjection.Proofs.ObjectMembers

/-!
# What drafts let show

Change the date of every draft of a dump, once to a date and once to a number
past all dates. Any object that shows a draft whole tells the two dumps apart,
and so does every object around it, as long as no schema defines a field twice.
A page of published nodes is therefore the same whatever the drafts hold exactly
when no node on it discloses a draft.
-/
namespace ContentProjection

namespace Projection

theorem together_injective {multiple : Bool} {values values' : List Json}
    (hl : values.length = values'.length) (h1 : multiple = false → values.length ≤ 1)
    (h : together multiple values = together multiple values') : values = values' := by
  cases multiple with
  | true => exact Json.arr.inj h
  | false =>
    cases values with
    | nil => exact (List.length_eq_zero_iff.1 hl.symm).symm
    | cons value rest =>
      have hrest : rest = [] :=
        List.length_eq_zero_iff.1 (Nat.le_zero.1 (Nat.le_of_succ_le_succ (h1 rfl)))
      subst hrest
      obtain ⟨value', rfl⟩ := List.length_eq_one_iff.1 hl.symm
      exact congrArg (fun value => [value]) h

end Projection

namespace Storage

variable (s : Storage Id) (ctx : Context) (e : Entity) (d : FieldDefinition)

theorem length_shownBy_le (h : d.multiple = false) : (s.shownBy ctx e d).length ≤ 1 := by
  unfold shownBy
  split
  · exact Nat.zero_le 1
  · cases d.type.targetKind? with
    | none => exact Nat.zero_le 1
    | some kind =>
      refine Nat.le_trans (List.length_filterMap_le _ _) ?_
      rw [h]
      exact List.length_take_le 1 _

theorem exists_load_of_mem_shownBy {s : Storage Id} {ctx : Context} {e target : Entity}
    {d : FieldDefinition} (h : target ∈ s.shownBy ctx e d) :
    ∃ kind id, (s.load kind id).run = some target := by
  unfold shownBy at h
  split at h
  · exact absurd h List.not_mem_nil
  · split at h
    · next kind _ =>
      obtain ⟨item, -, hi⟩ := List.mem_filterMap.1 h
      obtain ⟨id, -, hid⟩ := Option.bind_eq_some_iff.1 hi
      exact ⟨kind, id, hid⟩
    · exact absurd h List.not_mem_nil

end Storage

namespace Projector

variable (p : Projector Id) (ctx : Context)

theorem run_field?_of_mem_shownBy (expand : Entity → Id Json) {e target : Entity}
    {d : FieldDefinition} (h : target ∈ p.storage.shownBy ctx e d) :
    (p.field? ctx expand e d).run = some (Projection.together d.multiple
      ((p.storage.shownBy ctx e d).map fun shown => (expand shown).run)) := by
  unfold Storage.shownBy at h ⊢
  unfold field?
  split at h
  · exact absurd h List.not_mem_nil
  · next hshown =>
    rw [if_neg hshown, if_neg hshown]
    cases hk : d.type.targetKind? with
    | none =>
      rw [hk] at h
      exact absurd h List.not_mem_nil
    | some kind =>
      rw [hk] at h
      change target ∈ p.storage.targets kind d.multiple (e.field d.name) at h
      obtain ⟨reference, ht⟩ : ∃ reference, d.type = .entityReference reference := by
        cases hd : d.type <;> rw [hd] at hk <;> first | exact ⟨_, rfl⟩ | cases hk
      have hkind : reference.entityKind? = some kind := by rwa [ht] at hk
      have hne : (e.field d.name).isEmpty = false := by
        cases hi : e.field d.name with
        | nil =>
          rw [hi, Storage.targets_nil] at h
          exact absurd h List.not_mem_nil
        | cons item items => rfl
      simp only [ht, Rendering.ofType?, Rendering.isComputed, Rendering.lacksValue, hne,
        Bool.not_false, Bool.and_false, Bool.false_eq_true, if_false]
      exact congrArg some (p.run_referencesOf expand hkind d.multiple _)

end Projector

/-- The record with another date of change, if it is one of a draft. -/
def NodeRecord.redated (c : Int) (r : NodeRecord) : NodeRecord :=
  if r.published then r else { r with changed := some c }

/-- The dump with one date of change for all drafts. -/
def Dump.redated (c : Int) (d : Dump) : Dump := { d with nodes := d.nodes.map (·.redated c) }

/-- No schema defines two fields of one name, base fields included. -/
def Dump.DistinctFields (d : Dump) : Prop :=
  (∀ bundle ∈ d.nodeBundles, ((nodeOwnFields ++ bundle.2).map FieldDefinition.name).Nodup) ∧
  ∀ bundle ∈ d.termBundles, ((termOwnFields ++ bundle.2).map FieldDefinition.name).Nodup

instance (d : Dump) : Decidable d.DistinctFields :=
  inferInstanceAs (Decidable (_ ∧ _))

namespace NodeRecord

variable {r : NodeRecord} {c : Int}

theorem redated_of_published (h : r.published = true) : r.redated c = r := by
  rw [redated, if_pos h]

theorem redated_of_draft (h : r.published = false) :
    r.redated c = { r with changed := some c } := by
  rw [redated, if_neg (by simp [h])]

theorem redated_draftVariant (b c : Int) (r : NodeRecord) :
    (r.redated b).DraftVariant (r.redated c) := by
  cases hp : r.published with
  | true =>
    rw [redated_of_published hp, redated_of_published hp]
    exact DraftVariant.same r
  | false =>
    rw [redated_of_draft hp, redated_of_draft hp]
    exact DraftVariant.drafts hp hp rfl rfl rfl

theorem draftVariant_redated (c : Int) (r : NodeRecord) : r.DraftVariant (r.redated c) := by
  cases hp : r.published with
  | true =>
    rw [redated_of_published hp]
    exact DraftVariant.same r
  | false =>
    rw [redated_of_draft hp]
    exact DraftVariant.drafts hp hp rfl rfl rfl

theorem KeepsBase.redated (h : r.KeepsBase) (c : Int) : (r.redated c).KeepsBase := by
  unfold NodeRecord.redated
  split <;> exact h

theorem published_redated : (r.redated c).published = r.published := by
  unfold redated
  split <;> rfl

end NodeRecord

namespace Dump

theorem redated_draftVariant (b c : Int) (d : Dump) : (d.redated b).DraftVariant (d.redated c) :=
  ⟨forall₂_map_map (NodeRecord.redated_draftVariant b c) d.nodes, rfl, rfl, rfl, rfl, rfl, rfl⟩

theorem draftVariant_redated (c : Int) (d : Dump) : d.DraftVariant (d.redated c) := by
  refine ⟨?_, rfl, rfl, rfl, rfl, rfl, rfl⟩
  have h := forall₂_map_map (f := id) (NodeRecord.draftVariant_redated c) d.nodes
  rwa [List.map_id] at h

theorem KeepsBase.redated {d : Dump} (h : d.KeepsBase) (c : Int) : (d.redated c).KeepsBase := by
  intro r hr
  obtain ⟨r, hm, rfl⟩ := List.mem_map.1 hr
  exact (h r hm).redated c

end Dump

namespace Store

/-- Drafts that were all changed at one time, on shelves whose schemas define no field twice. -/
structure DraftsDated (s : Store) (c : Int) : Prop where
  dated : ∀ e ∈ s.nodes.entities, e.isDraft = true → e.field "changed" = [intItem c]
  housed : s.nodes.Housed
  terms : ∀ e ∈ s.terms.entities, e.isDraft = false
  fields : ∀ kind bundle, ((s.schemaOf kind bundle).map FieldDefinition.name).Nodup

theorem nodup_schemaOf_ofDump {d : Dump} (h : d.DistinctFields) (baseUrl : String)
    (kind : EntityKind) (bundle : String) :
    (((ofDump d baseUrl).schemaOf kind bundle).map FieldDefinition.name).Nodup := by
  unfold schemaOf
  cases hb : ((ofDump d baseUrl).shelf kind).bundle? bundle with
  | none => exact List.nodup_nil
  | some fields =>
    cases kind with
    | node =>
      rcases Shelf.given_of_bundle?_insertAll hb with hg | rfl
      · exact h.1 _ (List.mem_reverse.1 (mem_of_lookup_eq_some hg))
      · decide
    | taxonomyTerm =>
      rcases Shelf.given_of_bundle?_insertAll hb with hg | rfl
      · exact h.2 _ (List.mem_reverse.1 (mem_of_lookup_eq_some hg))
      · decide

theorem draftsDated_redated {d : Dump} (hk : d.KeepsBase) (hn : d.DistinctFields)
    (baseUrl : String) (c : Int) : (ofDump (d.redated c) baseUrl).DraftsDated c where
  dated := by
    intro e he hd
    obtain ⟨r', hr', rfl⟩ := mem_nodes_ofDump he
    obtain ⟨r, hr, rfl⟩ := List.mem_map.1 hr'
    have hp : r.published = false := by
      rw [NodeRecord.entity_eq] at hd
      simpa [Entity.isDraft, NodeRecord.published_redated] using hd
    rw [((hk r hr).redated c).field_changed, NodeRecord.redated_of_draft hp]
    rfl
  housed := housed_ofDump _ _ .node
  terms := by
    intro e he
    obtain ⟨r, -, rfl⟩ := mem_terms_ofDump he
    rw [TermRecord.entity, Entity.putFields_eq]
    rfl
  fields := nodup_schemaOf_ofDump (d := d.redated c) hn baseUrl

end Store

/-- Two dates of change that show, and show differently. -/
structure Projection.TellApart (offset : Calendar.Offset) (b c : Int) : Prop where
  first : Rendering.lacksValue .date [intItem b] = false
  second : Rendering.lacksValue .date [intItem c] = false
  dates : dateOf offset (intItem b) ≠ dateOf offset (intItem c)

/-- The start of 1970 is a date, the largest stored number is not. -/
theorem Projection.tellApart_start_past (offset : Calendar.Offset) :
    TellApart offset 0 Text.Numeral.maxInt64 := by
  refine ⟨by decide, by decide, ?_⟩
  have hstart : Text.Numeral.int64? (Text.trim (toString (0 : Int)).toList) = some 0 := by decide
  have hpast : Text.Numeral.int64? (Text.trim (toString Text.Numeral.maxInt64).toList) =
      some Text.Numeral.maxInt64 := by decide +kernel
  unfold dateOf intItem Item.scalar Calendar.render?
  rw [hstart, hpast, Option.bind_some, Option.bind_some, Calendar.show?, Calendar.show?,
    if_pos (by decide), if_neg (by decide)]
  exact fun h => Json.noConfusion h

namespace Store

section Disclosure

variable {s s' : Store} {b c : Int} {ctx : Context} (hctx : ctx.allowList = none)
  (offset : Calendar.Offset)

theorem DraftsDated.mem_nodes_of_shown (h : s.DraftsDated c) {e target : Entity}
    {d : FieldDefinition} (ht : target ∈ s.answers.shownBy ctx e d)
    (hd : target.isDraft = true) : target ∈ s.nodes.entities := by
  obtain ⟨kind, id, hload⟩ := Storage.exists_load_of_mem_shownBy ht
  cases kind with
  | node => exact Shelf.mem_of_get? hload
  | taxonomyTerm =>
    have hterm := h.terms target (Shelf.mem_of_get? hload)
    rw [hd] at hterm
    cases hterm

include hctx

/-- A draft shown whole shows its date of change. -/
theorem DraftsDated.get?_changed (h : s.DraftsDated c)
    (hc : Rendering.lacksValue .date [intItem c] = false) (n : Nat) {e : Entity}
    (he : e ∈ s.nodes.entities) (hd : e.isDraft = true) :
    (Projector.within ⟨s.answers, offset⟩ ctx n e).run.get? "changed" =
      some (Projection.dateOf offset (intItem c)) := by
  have hkind : e.kind = .node := by
    simp only [Entity.isDraft, Bool.and_eq_true, beq_iff_eq] at hd
    exact hd.1
  have hmem : FieldDefinition.single "changed" .date ∈ s.schemaOf e.kind e.bundle := by
    obtain ⟨fields, hf⟩ := Option.isSome_iff_exists.1 (h.housed e he)
    have hbundle : (s.shelf e.kind).bundle? e.bundle = some fields := by
      rw [hkind]
      exact hf
    rw [schemaOf, hbundle, hkind]
    exact List.mem_append_left fields (by decide)
  have hfield : e.field (FieldDefinition.single "changed" .date).name = [intItem c] :=
    h.dated e he hd
  have hadmits : ctx.Admits e.kind (FieldDefinition.single "changed" .date).name :=
    Context.admits_of_no_allowList hctx _ (by decide)
  rw [Projector.run_within]
  refine Projector.get?_run_object ⟨s.answers, offset⟩ ctx _ (h.fields _ _) hmem ?_
  rw [Projector.run_field?_of_admitted _ _ _ e hadmits rfl, hfield, hc, Bool.and_false,
    if_neg Bool.false_ne_true, Projector.render, hfield]
  rfl

omit hctx in
/-- Equal objects show equal values for the targets of each field. -/
theorem DraftsDated.map_shown_eq (h : s.Alike s') (hs : s.DraftsDated b) (hs' : s'.DraftsDated c)
    {expand expand' : Entity → Id Json} {e : Entity}
    (heq : (Projector.object ⟨s.answers, offset⟩ ctx expand e).run =
      (Projector.object ⟨s'.answers, offset⟩ ctx expand' e).run) {d : FieldDefinition}
    (hd : d ∈ s.schemaOf e.kind e.bundle) {target : Entity}
    (ht : target ∈ s.answers.shownBy ctx e d) :
    (s.answers.shownBy ctx e d).map (fun target => (expand target).run) =
      (s'.answers.shownBy ctx e d).map fun target => (expand' target).run := by
  have hshown := h.shownBy ctx e d
  obtain ⟨target', ht', -⟩ := exists_mem_of_forall₂ hshown ht
  have hd' : d ∈ s'.schemaOf e.kind e.bundle := by rwa [← h.schemaOf_eq]
  have hvalue := Projector.get?_run_object ⟨s.answers, offset⟩ ctx expand (hs.fields _ _) hd
    (Projector.run_field?_of_mem_shownBy ⟨s.answers, offset⟩ ctx expand ht)
  have hvalue' := Projector.get?_run_object ⟨s'.answers, offset⟩ ctx expand' (hs'.fields _ _) hd'
    (Projector.run_field?_of_mem_shownBy ⟨s'.answers, offset⟩ ctx expand' ht')
  rw [heq, hvalue'] at hvalue
  refine (Projection.together_injective ?_ (fun hsingle => ?_) (Option.some.inj hvalue)).symm
  · rw [List.length_map, List.length_map, hshown.length_eq]
  · rw [List.length_map]
    exact Storage.length_shownBy_le _ ctx e d hsingle

/-- Drafts changed at different times tell every object apart that discloses one. -/
theorem DraftsDated.within_ne (h : s.Alike s') (hs : s.DraftsDated b) (hs' : s'.DraftsDated c)
    (hbc : Projection.TellApart offset b c) {n : Nat} {e : Entity}
    (hd : s.discloses ctx n e = true) :
    (Projector.within ⟨s.answers, offset⟩ ctx n e).run ≠
      (Projector.within ⟨s'.answers, offset⟩ ctx n e).run := by
  induction n generalizing e with
  | zero => cases hd
  | succ n ih =>
    intro heq
    obtain ⟨d, hm, hany⟩ := List.any_eq_true.1 hd
    obtain ⟨target, ht, hor⟩ := List.any_eq_true.1 hany
    have hlists := hs.map_shown_eq offset h hs' heq hm ht
    obtain ⟨target', ht', hal, hobj⟩ := exists_of_map_eq_map (h.shownBy ctx e d) hlists ht
    have hwithin := Json.obj.inj hobj
    cases hdraft : target.isDraft with
    | true =>
      have hdraft' : target'.isDraft = true := by rwa [← hal.isDraft_eq]
      have hchanged := hs.get?_changed hctx offset hbc.first n (hs.mem_nodes_of_shown ht hdraft)
        hdraft
      have hchanged' := hs'.get?_changed hctx offset hbc.second n
        (hs'.mem_nodes_of_shown ht' hdraft') hdraft'
      rw [hwithin, hchanged'] at hchanged
      exact hbc.dates (Option.some.inj hchanged).symm
    | false =>
      obtain rfl := hal.eq_of_not_isDraft hdraft
      rw [hdraft, Bool.false_or] at hor
      exact ih hor hwithin

end Disclosure

end Store

end ContentProjection
