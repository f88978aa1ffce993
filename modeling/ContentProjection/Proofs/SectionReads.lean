import ContentProjection.Proofs.LayerMerge
import ContentProjection.Settings.Server

/-!
# How a layer is read as settings

Settings are read section by section and, in a section, each by itself: from what the layer
gives for it, or as its default where the layer gives nothing. A layer is refused exactly if
it has an unknown name, if a section is neither a group nor a list, or if what it gives for a
setting cannot be read as one.
-/
namespace ContentProjection

/-- What a setting is called in its section, how it is read and where it is kept. -/
structure Setting where
  {Value : Type}
  name : String
  read : Layer → Option Value
  of : ServerSettings → Value

/-- The value that is read from what is given, the default where nothing is. -/
def Setting.value? (t : Setting) (given : Option Layer) : Option t.Value :=
  Layer.setting? (t.of ServerSettings.default) t.read given

inductive Section where
  | server | logging | content
  deriving DecidableEq, Repr

namespace Section

def name : Section → String
  | server => "server"
  | logging => "logging"
  | content => "content_api"

def settings : Section → List Setting
  | server =>
    [⟨"bind_addr", fun given => given.text?.bind SocketAddress.ofString?, fun s => s.address⟩]
  | logging =>
    [⟨"level", Layer.text?, fun s => s.logging.level⟩,
      ⟨"format", LogFormat.ofLayer?, fun s => s.logging.format⟩]
  | content =>
    [⟨"base_path", Layer.text?, fun s => s.content.basePath⟩,
      ⟨"site", Layer.text?, fun s => s.content.site⟩,
      ⟨"content_types", Layer.texts?, fun s => s.content.contentTypes⟩,
      ⟨"vocabularies", Layer.texts?, fun s => s.content.vocabularies⟩,
      ⟨"idea_types", Layer.texts?, fun s => s.content.ideaTypes⟩,
      ⟨"contributor_content_types", Layer.texts?, fun s => s.content.contributorContentTypes⟩,
      ⟨"product_content_types", Layer.texts?, fun s => s.content.productContentTypes⟩,
      ⟨"default_limit", Layer.uint64?, fun s => s.content.defaultLimit⟩,
      ⟨"max_limit", Layer.uint64?, fun s => s.content.maxLimit⟩,
      ⟨"default_depth", Layer.uint32?, fun s => s.content.defaultDepth⟩,
      ⟨"max_depth", Layer.uint32?, fun s => s.content.maxDepth⟩,
      ⟨"utc_offset_minutes", Layer.int32?, fun s => s.content.utcOffsetMinutes⟩,
      ⟨"public_base_url", Layer.text?, fun s => s.content.publicBaseUrl⟩,
      ⟨"fixtures", Layer.optionalText?, fun s => s.content.fixtures⟩]

def names (g : Section) : List String := g.settings.map Setting.name

def all : List Section := [server, logging, content]

/-- Settings are read from a section as a layer gives it, if it does. -/
structure Reads (g : Section) (given : Option Layer) (s : ServerSettings) : Prop where
  isRecord : ∀ layer ∈ given, layer.IsRecord g.names
  value : ∀ t ∈ g.settings, t.value? (given.bind (Layer.given? g.names t.name)) = some (t.of s)

/-- Settings of a section are read from the values that a layer gives for them. -/
theorem reads_some_iff {g : Section} {layer : Layer} {s : ServerSettings} :
    g.Reads (some layer) s ↔ layer.IsRecord g.names ∧
      ∀ t ∈ g.settings, t.value? (layer.given? g.names t.name) = some (t.of s) := by
  constructor
  · intro h
    exact ⟨h.isRecord layer rfl, h.value⟩
  · intro h
    refine ⟨fun other hother => ?_, h.2⟩
    cases hother
    exact h.1

theorem reads_none_iff {g : Section} {s : ServerSettings} :
    g.Reads none s ↔ ∀ t ∈ g.settings, t.of ServerSettings.default = t.of s := by
  constructor
  · intro h t ht
    exact Option.some.inj (h.value t ht)
  · intro h
    exact ⟨fun _ hl => (nomatch hl), fun t ht => congrArg some (h t ht)⟩

end Section

theorem addressOfLayer?_eq_some_iff {layer : Layer} {s : ServerSettings} :
    ServerSettings.addressOfLayer? layer = some s.address ↔
      Section.server.Reads (some layer) s := by
  rw [Section.reads_some_iff]
  refine (Layer.bind_record?_eq_some_iff (by decide)).trans (and_congr_right fun _ => ?_)
  simp only [Section.settings, List.mem_cons, List.not_mem_nil, or_false, forall_eq]
  exact Iff.rfl

theorem logSettings_ofLayer?_eq_some_iff {layer : Layer} {s : ServerSettings} :
    LogSettings.ofLayer? layer = some s.logging ↔ Section.logging.Reads (some layer) s := by
  rw [Section.reads_some_iff]
  refine (Layer.bind_record?_eq_some_iff (by decide)).trans (and_congr_right fun _ => ?_)
  obtain ⟨address, ⟨level, format⟩, content⟩ := s
  simp only [List.map_cons, List.map_nil, Option.pure_def, Option.bind_eq_bind,
    Option.bind_eq_some_iff, Option.some.injEq, LogSettings.mk.injEq, exists_eq_right_right,
    Section.settings, List.mem_cons, List.not_mem_nil, or_false, forall_eq_or_imp, forall_eq]
  exact Iff.rfl

/-- A step of a reader and what follows it, to be taken apart from the outside. -/
theorem bind_eq_some_iff_exists {α β : Type} {x : Option α} {f : α → Option β} {b : β} :
    (x >>= f) = some b ↔ ∃ a, x = some a ∧ f a = some b := Option.bind_eq_some_iff

theorem contentSettings_ofLayer?_eq_some_iff {layer : Layer} {s : ServerSettings} :
    ContentSettings.ofLayer? layer = some s.content ↔ Section.content.Reads (some layer) s := by
  rw [Section.reads_some_iff]
  refine (Layer.bind_record?_eq_some_iff (by decide)).trans (and_congr_right fun _ => ?_)
  obtain ⟨address, logging, content⟩ := s
  simp only [ContentSettings.names, List.map_cons, List.map_nil, ↓bind_eq_some_iff_exists,
    Option.pure_def, Option.some.injEq, Section.settings, List.mem_cons, List.not_mem_nil,
    or_false, forall_eq_or_imp, forall_eq]
  constructor
  · rintro ⟨_, hbase, _, hsite, _, htypes, _, hvocabularies, _, hideas, _, hcontributor, _,
      hproduct, _, hlimit, _, hmaxLimit, _, hdepth, _, hmaxDepth, _, hoffset, _, hurl, _,
      hfixtures, rfl⟩
    exact ⟨hbase, hsite, htypes, hvocabularies, hideas, hcontributor, hproduct, hlimit,
      hmaxLimit, hdepth, hmaxDepth, hoffset, hurl, hfixtures⟩
  · rintro ⟨hbase, hsite, htypes, hvocabularies, hideas, hcontributor, hproduct, hlimit,
      hmaxLimit, hdepth, hmaxDepth, hoffset, hurl, hfixtures⟩
    exact ⟨_, hbase, _, hsite, _, htypes, _, hvocabularies, _, hideas, _, hcontributor, _,
      hproduct, _, hlimit, _, hmaxLimit, _, hdepth, _, hmaxDepth, _, hoffset, _, hurl, _,
      hfixtures, rfl⟩

namespace Section

/-- A section is its default where it is not given, and read from what is given. -/
theorem setting?_eq_some_iff_reads {α : Type} (part : ServerSettings → α) {g : Section}
    {s : ServerSettings} {read : Layer → Option α}
    (hpart : part ServerSettings.default = part s ↔
      ∀ t ∈ g.settings, t.of ServerSettings.default = t.of s)
    (hread : ∀ layer, read layer = some (part s) ↔ g.Reads (some layer) s)
    (given : Option Layer) :
    Layer.setting? (part ServerSettings.default) read given = some (part s) ↔
      g.Reads given s := by
  cases given with
  | none => rw [Layer.setting?, Option.some.injEq, hpart, reads_none_iff]
  | some layer => exact hread layer

theorem setting?_address_iff (given : Option Layer) (s : ServerSettings) :
    Layer.setting? ServerSettings.defaultAddress ServerSettings.addressOfLayer? given =
      some s.address ↔ server.Reads given s := by
  refine setting?_eq_some_iff_reads ServerSettings.address ?_
    (fun layer => addressOfLayer?_eq_some_iff) given
  simp [settings]

theorem setting?_logging_iff (given : Option Layer) (s : ServerSettings) :
    Layer.setting? LogSettings.default LogSettings.ofLayer? given = some s.logging ↔
      logging.Reads given s := by
  refine setting?_eq_some_iff_reads ServerSettings.logging ?_
    (fun layer => logSettings_ofLayer?_eq_some_iff) given
  obtain ⟨address, ⟨level, format⟩, content⟩ := s
  simp [settings, ServerSettings.default, LogSettings.default]

theorem setting?_content_iff (given : Option Layer) (s : ServerSettings) :
    Layer.setting? ContentSettings.default ContentSettings.ofLayer? given = some s.content ↔
      content.Reads given s := by
  refine setting?_eq_some_iff_reads ServerSettings.content ?_
    (fun layer => contentSettings_ofLayer?_eq_some_iff) given
  obtain ⟨address, logging, content⟩ := s
  cases content
  simp [settings, ServerSettings.default, ContentSettings.default]

end Section

/-- Settings are read from a group exactly if it has no section of another name and they are
read from each section as the group gives it. -/
theorem ServerSettings.ofLayer?_eq_some_iff {layer : Layer} (h : layer.isGroup)
    {s : ServerSettings} : ServerSettings.ofLayer? layer = some s ↔
      (∀ name ∈ layer.entries.names, name ∈ Section.all.map Section.name) ∧
        ∀ g : Section, g.Reads (layer.child? g.name) s := by
  have hgiven : (Section.all.map Section.name).map (layer.given? (Section.all.map Section.name)) =
      [layer.child? "server", layer.child? "logging", layer.child? "content_api"] := by
    rw [Layer.eq_group_of_isGroup h]
    rfl
  have hrecord : layer.IsRecord (Section.all.map Section.name) ↔
      ∀ name ∈ layer.entries.names, name ∈ Section.all.map Section.name := by
    rw [Layer.eq_group_of_isGroup h]
    exact Iff.rfl
  have hall : (∀ g : Section, g.Reads (layer.child? g.name) s) ↔
      Section.server.Reads (layer.child? "server") s ∧
        Section.logging.Reads (layer.child? "logging") s ∧
          Section.content.Reads (layer.child? "content_api") s := by
    constructor
    · intro hg
      exact ⟨hg .server, hg .logging, hg .content⟩
    · rintro ⟨hserver, hlogging, hcontent⟩ g
      cases g with
      | server => exact hserver
      | logging => exact hlogging
      | content => exact hcontent
  have hnodup : (Section.all.map Section.name).Nodup := by decide
  refine (Layer.bind_record?_eq_some_iff hnodup).trans (and_congr hrecord ?_)
  rw [hgiven, hall, ← Section.setting?_address_iff, ← Section.setting?_logging_iff,
    ← Section.setting?_content_iff]
  obtain ⟨address, logging, content⟩ := s
  simp only [Option.pure_def, Option.bind_eq_bind, Option.bind_eq_some_iff, Option.some.injEq,
    ServerSettings.mk.injEq, ↓existsAndEq, and_true]

end ContentProjection
