import ContentProjection.Proofs.EnvironmentLayer
import ContentProjection.Proofs.SectionReads

/-!
# Which layer decides a setting

A setting has the value that the command line gives, else the one of the environment, else
the one of the file, else its default. A section that both layers give decides whether this
holds setting by setting. Where both give it as a group, it does, and unknown names of the
file are refused. Where one of them gives it as a list, the section of the environment
replaces the section of the file as a whole: names of the file that no section has go
unnoticed, and settings that only the file gives fall back to their defaults.
-/
namespace ContentProjection

namespace Section

/-- What a layer gives for a setting of the section. -/
def leaf? (g : Section) (t : Setting) (layer : Layer) : Option Layer :=
  layer.leaf? g.names g.name t.name

/-- What two layers give together for a setting of the section. -/
def layered? (g : Section) (t : Setting) (lower upper : Layer) : Option Layer :=
  Layer.over? (g.leaf? t lower) (g.leaf? t upper)

/-- The layer gives no unknown name in the section. -/
def KnowsNames (g : Section) (layer : Layer) : Prop :=
  ∀ child ∈ layer.child? g.name, ∀ name ∈ child.entries.names, name ∈ g.names

/-- Replacing the section of the lower layer as a whole has no effect on the settings. -/
def Harmless (g : Section) (lower upper : Layer) : Prop :=
  g.KnowsNames lower ∧
    ∀ t ∈ g.settings, t.value? (g.layered? t lower upper) = t.value? (g.leaf? t upper)

end Section

/-- Each layer decides the settings that it gives and no others, and the lower one has no
unknown name. -/
structure LeafByLeaf (lower upper : Layer) (s : ServerSettings) : Prop where
  sections : ∀ name ∈ lower.entries.names, name ∈ Section.all.map Section.name
  names : ∀ g : Section, g.KnowsNames lower
  value : ∀ g : Section, ∀ t ∈ g.settings, t.value? (g.layered? t lower upper) = some (t.of s)

/-- How settings come about from two layers. -/
structure ReadLayered (lower upper : Layer) (s : ServerSettings) : Prop where
  sections : ∀ name, name ∈ lower.entries.names ∨ name ∈ upper.entries.names →
    name ∈ Section.all.map Section.name
  names_lower : ∀ g : Section, Layer.displaces g.name lower upper = false → g.KnowsNames lower
  names_upper : ∀ g : Section, g.KnowsNames upper
  value : ∀ g : Section, ∀ t ∈ g.settings,
    t.value? (if Layer.displaces g.name lower upper then g.leaf? t upper
      else g.layered? t lower upper) = some (t.of s)
  /-- What the upper layer gives, unless it is a group, replaces what the lower one gives. -/
  replaced : ∀ g : Section, ∀ t ∈ g.settings, ∀ given, g.leaf? t upper = some given →
    ¬given.isGroup → t.value? (some given) = some (t.of s)

/-- Which settings the variables give. -/
structure GivenByVariables (environment : List (String × String)) (upper : Layer) : Prop where
  untouched : ∀ g : Section, ∀ t ∈ g.settings,
    Settings.Environment.Untouched environment g.name t.name → g.leaf? t upper = none
  last : ∀ g : Section, ∀ t ∈ g.settings, ∀ before entry after leaf,
    environment = before ++ entry :: after →
    Settings.Environment.path? entry.1 = some [g.name, t.name] →
    Settings.Environment.ofSpelling? entry.2 = some leaf → ¬leaf.isGroup →
    Settings.Environment.Untouched after g.name t.name → g.leaf? t upper = some leaf

/-- The settings that the command line may give. -/
def commandNames : List String := ["bind_addr", "level", "fixtures"]

/-- Settings after the command line: it gives the number to listen on but not the host, the
file of fixtures and the level of the log. -/
structure Overridden (o : Overrides) (s s' : ServerSettings) : Prop where
  host : s'.address.host = s.address.host
  portNumber : s'.address.portNumber = o.portNumber.getD s.address.portNumber
  level : s'.logging.level = o.level?.getD s.logging.level
  fixtures : s'.content.fixtures = o.fixtures.or s.content.fixtures
  kept : ∀ g : Section, ∀ t ∈ g.settings, t.name ∉ commandNames → t.of s' = t.of s

theorem of_override (o : Overrides) (s : ServerSettings) (g : Section) :
    ∀ t ∈ g.settings, t.name ∈ commandNames ∨ t.of (s.override o) = t.of s := by
  cases g <;> simp [Section.settings, commandNames, ServerSettings.override]

theorem overridden_override (o : Overrides) (s : ServerSettings) :
    Overridden o s (s.override o) where
  host := by
    cases h : o.portNumber <;> simp [ServerSettings.override, h, SocketAddress.withPortNumber]
  portNumber := by
    cases h : o.portNumber <;> simp [ServerSettings.override, h, SocketAddress.withPortNumber]
  level := rfl
  fixtures := rfl
  kept := fun g t ht hn => (of_override o s g t ht).resolve_left hn

variable {lower upper : Layer} {s : ServerSettings}

theorem readLayered_of_ofLayer? (hs : upper.Sectioned)
    (h : ServerSettings.ofLayer? (lower.under upper) = some s) : ReadLayered lower upper s := by
  obtain ⟨hsections, hreads⟩ :=
    (ServerSettings.ofLayer?_eq_some_iff (Layer.isGroup_under hs.isGroup)).1 h
  have hvalue : ∀ g : Section, ∀ t ∈ g.settings,
      t.value? (if Layer.displaces g.name lower upper then g.leaf? t upper
        else g.layered? t lower upper) = some (t.of s) := by
    intro g t ht
    have hread := (hreads g).value t ht
    change t.value? ((lower.under upper).leaf? g.names g.name t.name) = some (t.of s) at hread
    rwa [Layer.leaf?_under hs] at hread
  refine ⟨?_, ?_, ?_, hvalue, ?_⟩
  · rintro name (hl | hu)
    · exact hsections name (Layer.mem_names_entries_under_of_lower hs.isGroup hl)
    · exact hsections name (Layer.mem_names_entries_under_of_upper hu)
  · intro g hd child hc name hn
    obtain ⟨merged, hm, hkept⟩ := Layer.exists_child?_under_of_lower hs hc hd
    exact ((hreads g).isRecord merged hm).mem_of_mem_names (hkept name hn)
  · intro g child hc name hn
    obtain ⟨merged, hm, hkept⟩ := Layer.exists_child?_under_of_upper hs hc
    exact ((hreads g).isRecord merged hm).mem_of_mem_names (hkept name hn)
  · intro g t ht given hgiven hg
    have hread := hvalue g t ht
    rw [Section.layered?, hgiven, Layer.over?_of_not_isGroup _ hg, ite_self] at hread
    exact hread

/-- Settings are layered one by one exactly if every displaced section is harmless. -/
theorem ReadLayered.leafByLeaf_iff (h : ReadLayered lower upper s) :
    LeafByLeaf lower upper s ↔
      ∀ g : Section, Layer.displaces g.name lower upper → g.Harmless lower upper := by
  constructor
  · intro hleaf g hd
    refine ⟨hleaf.names g, fun t ht => ?_⟩
    have hread := h.value g t ht
    rw [if_pos hd] at hread
    rw [hleaf.value g t ht, hread]
  · intro hharmless
    refine ⟨fun name hn => h.sections name (Or.inl hn), fun g => ?_, fun g t ht => ?_⟩
    · by_cases hd : Layer.displaces g.name lower upper = true
      · exact (hharmless g hd).1
      · exact h.names_lower g (Bool.not_eq_true _ ▸ hd)
    · have hread := h.value g t ht
      by_cases hd : Layer.displaces g.name lower upper = true
      · rw [if_pos hd] at hread
        rw [(hharmless g hd).2 t ht, hread]
      · rwa [if_neg hd] at hread

theorem givenByVariables {environment : List (String × String)}
    (h : Settings.Environment.layer? environment = some upper) :
    GivenByVariables environment upper where
  untouched := fun g t _ hu => Settings.Environment.leaf?_layer?_of_untouched hu h g.names
  last := by
    rintro g t - before entry after leaf rfl hp hl hg hu
    exact Settings.Environment.leaf?_layer?_of_last hp hl hg hu h g.names

/-- How settings come about from a file and the environment. -/
def LoadedFrom (file : Option String) (environment : List (String × String))
    (s : ServerSettings) : Prop :=
  ∃ lower upper, ServerSettings.fileLayer? file = some lower ∧
    Settings.Environment.layer? environment = some upper ∧
    GivenByVariables environment upper ∧ ReadLayered lower upper s ∧
    (LeafByLeaf lower upper s ↔
      ∀ g : Section, Layer.displaces g.name lower upper → g.Harmless lower upper)

/-- Settings that are loaded come from the command line, the environment, the file and the
defaults, in this order: section by section where a list stands for a section, and setting
by setting everywhere else. -/
theorem ServerSettings.decided_by_layers {file : Option String}
    {environment : List (String × String)} (h : ServerSettings.load file environment = .ok s)
    (o : Overrides) :
    LoadedFrom file environment s ∧ Overridden o s (s.override o) := by
  refine ⟨?_, overridden_override o s⟩
  rw [ServerSettings.load] at h
  split at h
  next => cases h
  next upper hupper =>
    split at h
    next => cases h
    next settings hsettings =>
      cases h
      obtain ⟨lower, hlower, hread⟩ := Option.bind_eq_some_iff.1 hsettings
      have hlayered := readLayered_of_ofLayer? (Settings.Environment.sectioned_layer? hupper) hread
      exact ⟨lower, upper, hlower, hupper, givenByVariables hupper, hlayered,
        hlayered.leafByLeaf_iff⟩

theorem load_eq_ok_of_toOption {file : Option String} {environment : List (String × String)}
    (h : (ServerSettings.load file environment).toOption = some s) :
    ServerSettings.load file environment = .ok s := by
  cases hload : ServerSettings.load file environment with
  | error fault =>
    rw [hload] at h
    cases h
  | ok settings =>
    rw [hload] at h
    exact congrArg Except.ok (Option.some.inj h)

/-- The format of the file, the level of the environment and the number of the command line. -/
theorem jsonDebug_decided_by_layers :
    ServerSettings.load (some "logging:\n  format: json\n") [("APP__LOGGING__LEVEL", "debug")] =
        .ok ⟨ServerSettings.defaultAddress, ⟨"debug", .json⟩, ContentSettings.default⟩ ∧
      LoadedFrom (some "logging:\n  format: json\n") [("APP__LOGGING__LEVEL", "debug")]
        ⟨ServerSettings.defaultAddress, ⟨"debug", .json⟩, ContentSettings.default⟩ ∧
      Overridden ⟨some 9000, none, 0⟩
        ⟨ServerSettings.defaultAddress, ⟨"debug", .json⟩, ContentSettings.default⟩
        ⟨⟨.v4 127 0 0 1, 9000⟩, ⟨"debug", .json⟩, ContentSettings.default⟩ := by
  have hload : ServerSettings.load (some "logging:\n  format: json\n")
      [("APP__LOGGING__LEVEL", "debug")] =
        .ok ⟨ServerSettings.defaultAddress, ⟨"debug", .json⟩, ContentSettings.default⟩ :=
    load_eq_ok_of_toOption (by decide +kernel)
  exact ⟨hload, ServerSettings.decided_by_layers hload ⟨some 9000, none, 0⟩⟩

/-- Each layer decides the settings that it gives and no others, and names of the file that
are unknown are refused. -/
def LoadsLeafByLeaf (file : Option String) (environment : List (String × String)) : Prop :=
  ∀ s, ServerSettings.load file environment = .ok s →
    ∃ lower upper, ServerSettings.fileLayer? file = some lower ∧
      Settings.Environment.layer? environment = some upper ∧ LeafByLeaf lower upper s

/-- A list for a section passes over an unknown name in the section of the file, and takes
the format of the log that only the file gives away. -/
theorem listedSection_not_loadsLeafByLeaf :
    ¬LoadsLeafByLeaf (some "logging:\n  colour: blue\n") [("APP__LOGGING", "[]")] ∧
      ¬LoadsLeafByLeaf (some "logging:\n  format: json\n") [("APP__LOGGING", "[\"debug\"]")] := by
  constructor
  · intro h
    obtain ⟨lower, upper, hlower, -, hlaw⟩ := h ServerSettings.default
      (load_eq_ok_of_toOption (by decide +kernel))
    have hnames : ((ServerSettings.fileLayer? (some "logging:\n  colour: blue\n")).bind fun layer =>
        (layer.child? "logging").map fun child => child.entries.names) = some ["colour"] := by
      decide +kernel
    rw [hlower, Option.bind_some] at hnames
    obtain ⟨child, hchild, hcolour⟩ := Option.map_eq_some_iff.1 hnames
    have hknown := hlaw.names .logging child hchild "colour" (hcolour ▸ List.mem_singleton_self _)
    exact absurd hknown (by decide)
  · intro h
    obtain ⟨lower, upper, hlower, hupper, hlaw⟩ :=
      h ⟨ServerSettings.defaultAddress, ⟨"debug", .text⟩, ContentSettings.default⟩
        (load_eq_ok_of_toOption (by decide +kernel))
    have hjson : ((ServerSettings.fileLayer? (some "logging:\n  format: json\n")).bind fun lower =>
        (Settings.Environment.layer? [("APP__LOGGING", "[\"debug\"]")]).bind fun upper =>
          Layer.setting? LogSettings.default.format LogFormat.ofLayer?
            (Layer.over? (lower.leaf? Section.logging.names "logging" "format")
              (upper.leaf? Section.logging.names "logging" "format"))) = some LogFormat.json := by
      decide +kernel
    rw [hlower, hupper, Option.bind_some, Option.bind_some] at hjson
    have hread := hlaw.value .logging ⟨"format", LogFormat.ofLayer?, fun s => s.logging.format⟩
      (by simp [Section.settings])
    exact absurd (hread.symm.trans hjson) (by decide)

end ContentProjection
