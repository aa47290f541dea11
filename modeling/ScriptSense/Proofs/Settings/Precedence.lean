import ScriptSense.Proofs.Data.Merge
import ScriptSense.Proofs.Schema.Written
import ScriptSense.Settings.Load

/-! Settings from several places. Every setting is taken from the first place that states it, in the
order given values, environment, file of the project, file of the user, and has its default if none
does. Sections are united key by key on the way, and the other settings of a section are not lost
when one of them is stated somewhere else. -/
namespace ScriptSense
namespace Settings

/-! What the places may say. -/

/-- The values that a setting of a section admits: those that it can be read from. -/
def Admits (home : FilePath) (name key : String) (v : Value) : Prop :=
  match name, key with
  | "logging", "level" => ∃ a, Schema.literal levels v = .ok a
  | "logging", "outputs" => ∃ a, Schema.list (Output.decode home) v = .ok a
  | "metadata", "compiled_glob" => ∃ a, Schema.ensuring Schema.text Metadata.refuseGlob v = .ok a
  | "metadata", "source_dirs" => ∃ a, Schema.list Schema.text v = .ok a
  | "metadata", "implicit_root_classes" => ∃ a, Schema.list Schema.text v = .ok a
  | "watch", "enabled" => ∃ a, Schema.truth v = .ok a
  | "watch", "debounce_ms" => ∃ a, Schema.ensuring Schema.integer Watch.refuseDebounce v = .ok a
  | "analysis", "pattern_window" =>
    ∃ a, Schema.ensuring Schema.integer Analysis.refuseWindow v = .ok a
  | _, _ => False

def stated? (layer : Assoc Value) (name key : String) : Option Value :=
  (Value.map layer).at? [.str name, .str key]

/-- A place maps sections to mappings of settings to values that they admit. -/
structure IsLayer (home : FilePath) (layer : Assoc Value) : Prop where
  tidy : (Value.map layer).Tidy
  known : ∀ name v, layer.get? name = some v → name ∈ sections ∧ v.rows?.isSome = true
  admitted : ∀ name key v, stated? layer name key = some v → Admits home name key v

end Settings

/-! No setting admits a mapping. -/

namespace Schema

variable {α : Type} {v : Value} {a : α}

/-- A decoder that takes no mappings. -/
def Flat (decode : Decoder α) : Prop := ∀ v a, decode v = .ok a → v.rows? = none

theorem flat_of_refuses {decode : Decoder α} (hmap : ∀ entries a, decode (.map entries) ≠ .ok a)
    (htable : ∀ rows a, decode (.table rows) ≠ .ok a)
    (hstyled : ∀ text v a, decode (.styled text v) ≠ .ok a) : Flat decode := by
  intro v a h
  cases v with
  | map entries => exact absurd h (hmap entries a)
  | table rows => exact absurd h (htable rows a)
  | styled text v => exact absurd h (hstyled text v a)
  | _ => rfl

theorem flat_literal (options : List (String × α)) : Flat (literal options) :=
  flat_of_refuses nofun nofun nofun

theorem flat_text : Flat text := flat_of_refuses nofun nofun nofun

theorem flat_integer : Flat integer := flat_of_refuses nofun nofun nofun

theorem flat_truth : Flat truth := flat_of_refuses nofun nofun nofun

theorem flat_list (decode : Decoder α) : Flat (list decode) := by
  intro v as h
  rw [list] at h
  split at h
  · rename_i items hv
    rw [Value.rows?, hv]
  · cases h

theorem ensuring_eq_ok {decode : Decoder α} {refusal : α → Option String} :
    ensuring decode refusal v = .ok a ↔ decode v = .ok a ∧ refusal a = none := by
  rw [ensuring]
  cases decode v with
  | failed first others => simp [Checked.andThen]
  | ok b =>
    simp only [Checked.andThen]
    split
    · rename_i reason hb
      constructor
      · intro h
        cases h
      · rintro ⟨he, ha⟩
        cases he
        rw [hb] at ha
        cases ha
    · rename_i hb
      constructor
      · intro h
        cases h
        exact ⟨rfl, hb⟩
      · exact fun h => h.1

theorem Flat.ensuring {decode : Decoder α} (hd : Flat decode) (refusal : α → Option String) :
    Flat (ensuring decode refusal) := fun v a h => hd v a (ensuring_eq_ok.mp h).1

end Schema

namespace Settings

variable {home : FilePath}

theorem Admits.rows? {name key : String} {v : Value} (h : Admits home name key v) :
    v.rows? = none := by
  unfold Admits at h
  split at h
  · exact Schema.flat_literal levels v _ h.choose_spec
  · exact Schema.flat_list _ v _ h.choose_spec
  · exact Schema.flat_text.ensuring _ v _ h.choose_spec
  · exact Schema.flat_list _ v _ h.choose_spec
  · exact Schema.flat_list _ v _ h.choose_spec
  · exact Schema.flat_truth v _ h.choose_spec
  · exact Schema.flat_integer.ensuring _ v _ h.choose_spec
  · exact Schema.flat_integer.ensuring _ v _ h.choose_spec
  · exact h.elim

theorem child?_map (layer : Assoc Value) (name : String) :
    (Value.map layer).child? (.str name) = layer.get? name := Value.rowOf?_named layer name

theorem stated?_eq (layer : Assoc Value) (name key : String) :
    stated? layer name key = (layer.get? name).bind (·.child? (.str key)) := by
  rw [stated?, Value.at?, child?_map]
  cases layer.get? name with
  | none => rfl
  | some v => exact Option.bind_fun_some (v.child? (.str key))

theorem IsLayer.stated?_mergeEntries {base top : Assoc Value} (hb : IsLayer home base)
    (ht : IsLayer home top) (name key : String) :
    stated? (Value.mergeEntries base top) name key =
      (stated? top name key).or (stated? base name key) := by
  have hadmitted := ht.admitted name key
  rw [stated?_eq, stated?_eq, stated?_eq, Value.get?_mergeEntries base top ht.tidy.nodup_keys]
  rw [stated?_eq] at hadmitted
  cases htop : top.get? name with
  | none => rfl
  | some v =>
    rw [htop] at hadmitted
    cases hbase : base.get? name with
    | none => simp
    | some b =>
      have hchild := Value.child?_merge (hb.known name b hbase).2 (ht.known name v htop).2
        (ht.tidy.child ((child?_map top name).trans htop)) (.str key)
      simp only [Option.bind_some, hchild]
      cases hv : v.child? (.str key) with
      | none => rfl
      | some w =>
        have hflat := (hadmitted w hv).rows?
        simp [Value.merge_of_rows?_none hflat]

theorem IsLayer.mergeEntries {base top : Assoc Value} (hb : IsLayer home base)
    (ht : IsLayer home top) : IsLayer home (Value.mergeEntries base top) where
  tidy := by
    rw [← Value.merge_map_map]
    exact hb.tidy.merge ht.tidy
  known name v hv := by
    rw [Value.get?_mergeEntries base top ht.tidy.nodup_keys] at hv
    cases htop : top.get? name with
    | none =>
      rw [htop] at hv
      exact hb.known name v hv
    | some w =>
      rw [htop] at hv
      obtain rfl := Option.some.inj hv
      obtain ⟨hname, hw⟩ := ht.known name w htop
      refine ⟨hname, ?_⟩
      cases hbase : base.get? name with
      | none => rwa [Value.merge_none]
      | some b =>
        obtain ⟨old, hold⟩ := Option.isSome_iff_exists.mp (hb.known name b hbase).2
        obtain ⟨rows, hrows⟩ := Option.isSome_iff_exists.mp hw
        rw [Value.rows?_merge hold hrows]
        rfl
  admitted name key v hv := by
    rw [hb.stated?_mergeEntries ht] at hv
    rcases Option.or_eq_some_iff.mp hv with hv | ⟨-, hv⟩
    · exact ht.admitted name key v hv
    · exact hb.admitted name key v hv

def first? (layers : List (Assoc Value)) (name key : String) : Option Value :=
  layers.findSome? (stated? · name key)

theorem isLayer_combined {l : Layers} (hu : IsLayer home l.user) (hp : IsLayer home l.project)
    (he : IsLayer home l.environment) (hg : IsLayer home l.given) : IsLayer home l.combined :=
  (hu.mergeEntries hp).mergeEntries (he.mergeEntries hg)

theorem stated?_combined {l : Layers} (hu : IsLayer home l.user) (hp : IsLayer home l.project)
    (he : IsLayer home l.environment) (hg : IsLayer home l.given) (name key : String) :
    stated? l.combined name key =
      first? [l.given, l.environment, l.project, l.user] name key := by
  rw [Layers.combined, (hu.mergeEntries hp).stated?_mergeEntries (he.mergeEntries hg),
    hu.stated?_mergeEntries hp, he.stated?_mergeEntries hg]
  simp only [first?, List.findSome?]
  cases stated? l.given name key <;> cases stated? l.environment name key <;>
    cases stated? l.project name key <;> cases stated? l.user name key <;> rfl

theorem isLayer_single {name key : String} {v : Value} (hname : name ∈ sections)
    (h : Admits home name key v) : IsLayer home [(name, .map [(key, v)])] where
  tidy := ((Value.tidy_of_rows?_none h.rows?).single key).single name
  known other w hw := by
    rw [Assoc.get?_cons] at hw
    split at hw
    · rename_i ho
      obtain rfl := beq_iff_eq.mp ho
      obtain rfl := Option.some.inj hw
      exact ⟨hname, rfl⟩
    · cases hw
  admitted other setting w hw := by
    rw [stated?_eq, Assoc.get?_cons] at hw
    split at hw
    · rename_i ho
      obtain rfl := beq_iff_eq.mp ho
      rw [Option.bind_some, child?_map, Assoc.get?_cons] at hw
      split at hw
      · rename_i hs
        obtain rfl := beq_iff_eq.mp hs
        obtain rfl := Option.some.inj hw
        exact h
      · cases hw
    · cases hw

/-! Settings that follow what is stated. -/

section

variable {α : Type}

/-- A setting is read from what is stated, or else it has its default. -/
def Follows (decode : Schema.Decoder α) (absent : α) (stated : Option Value) (a : α) : Prop :=
  match stated with
  | some v => decode v = .ok a
  | none => a = absent

theorem find?_plain (key : String) (entries : Assoc Value) :
    (Schema.Key.plain key).find? entries = (entries.get? key).map (Prod.mk key) := by
  rw [Schema.Key.find?, Schema.Key.plain]
  cases entries.get? key <;> rfl

theorem exists_orElse {decode : Schema.Decoder α} {entries : Assoc Value} (key : String)
    (absent : α) (h : ∀ v, entries.get? key = some v → ∃ a, decode v = .ok a) :
    ∃ a, Schema.orElse (.plain key) absent decode entries = .ok a ∧
      Follows decode absent (entries.get? key) a := by
  cases hv : entries.get? key with
  | none =>
    refine ⟨absent, ?_, rfl⟩
    rw [Schema.orElse, find?_plain, hv]
    rfl
  | some v =>
    obtain ⟨a, ha⟩ := h v hv
    have hfind : (Schema.Key.plain key).find? entries = some (key, v) := by
      rw [find?_plain, hv]
      rfl
    exact ⟨a, Schema.orElse_of_find? hfind ha, ha⟩

theorem exists_section {layer : Assoc Value} (hl : IsLayer home layer) {name shape : String}
    {read : Assoc Value → Checked α} {absent : α} {Good : (String → Option Value) → α → Prop}
    (hread : ∀ entries : Assoc Value,
      (∀ key v, entries.get? key = some v → Admits home name key v) →
        ∃ a, read entries = .ok a ∧ Good entries.get? a)
    (habsent : Good (fun _ => none) absent) :
    ∃ a, Schema.orElse (.plain name) absent (Schema.record shape read) layer = .ok a ∧
      Good (stated? layer name) a := by
  cases hv : layer.get? name with
  | none =>
    have hstated : stated? layer name = fun _ => none := by
      funext key
      rw [stated?_eq, hv]
      rfl
    rw [hstated]
    refine ⟨absent, ?_, habsent⟩
    rw [Schema.orElse, find?_plain, hv]
    rfl
  | some v =>
    obtain ⟨rows, hrows⟩ := Option.isSome_iff_exists.mp (hl.known name v hv).2
    have hstated : stated? layer name = (Value.namedRows rows).get? := by
      funext key
      rw [stated?_eq, hv, Option.bind_some, Value.child?, hrows, Value.get?_namedRows]
      rfl
    have hadmitted : ∀ key w, (Value.namedRows rows).get? key = some w → Admits home name key w := by
      intro key w hw
      rw [← hstated] at hw
      exact hl.admitted name key w hw
    obtain ⟨a, ha, hgood⟩ := hread (Value.namedRows rows) hadmitted
    rw [hstated]
    refine ⟨a, ?_, hgood⟩
    have hrecord : Schema.record shape read v = .ok a := by
      rw [Schema.record, Value.entries?_of_rows? hrows]
      exact ha
    rw [Schema.orElse, find?_plain, hv]
    exact Checked.below_eq_ok.mpr hrecord

end

structure Logging.Follows (home : FilePath) (stated : String → Option Value) (l : Logging) :
    Prop where
  level : Settings.Follows (Schema.literal levels) .info (stated "level") l.level
  outputs : Settings.Follows (Schema.list (Output.decode home)) [.default] (stated "outputs")
    l.outputs

structure Metadata.Follows (stated : String → Option Value) (m : Metadata) : Prop where
  compiledGlob : Settings.Follows (Schema.ensuring Schema.text refuseGlob)
    "compiled/*/transpiled/**/*.json" (stated "compiled_glob") m.compiledGlob
  sourceDirs : Settings.Follows (Schema.list Schema.text) ["source/class"] (stated "source_dirs")
    m.sourceDirs
  implicitRoots : Settings.Follows (Schema.list Schema.text) ["Object"]
    (stated "implicit_root_classes") m.implicitRoots

structure Watch.Follows (stated : String → Option Value) (w : Watch) : Prop where
  enabled : Settings.Follows Schema.truth true (stated "enabled") w.enabled
  debounce : Settings.Follows (Schema.ensuring Schema.integer refuseDebounce) 300
    (stated "debounce_ms") w.debounce

def Analysis.Follows (stated : String → Option Value) (a : Analysis) : Prop :=
  Settings.Follows (Schema.ensuring Schema.integer refuseWindow) 512 (stated "pattern_window")
    a.window

/-- All settings follow what is stated about them. -/
structure FollowsAll (home : FilePath) (stated : String → String → Option Value) (s : Settings) :
    Prop where
  logging : s.logging.Follows home (stated "logging")
  metadata : s.metadata.Follows (stated "metadata")
  watch : s.watch.Follows (stated "watch")
  analysis : s.analysis.Follows (stated "analysis")

theorem exists_logging {layer : Assoc Value} (hl : IsLayer home layer) :
    ∃ l, Schema.orElse (.plain "logging") .default (Logging.decode home) layer = .ok l ∧
      l.Follows home (stated? layer "logging") := by
  refine exists_section hl (fun entries h => ?_) ⟨rfl, rfl⟩
  obtain ⟨level, hlevel, hl⟩ := exists_orElse "level" Level.info (h "level")
  obtain ⟨outputs, houtputs, ho⟩ := exists_orElse "outputs" [Output.default] (h "outputs")
  exact ⟨⟨level, outputs⟩, Checked.ok_seq (Checked.ok_map hlevel) houtputs, hl, ho⟩

theorem exists_metadata {layer : Assoc Value} (hl : IsLayer home layer) :
    ∃ m, Schema.orElse (.plain "metadata") .default Metadata.decode layer = .ok m ∧
      m.Follows (stated? layer "metadata") := by
  refine exists_section hl (fun entries h => ?_) ⟨rfl, rfl, rfl⟩
  obtain ⟨glob, hglob, hg⟩ := exists_orElse "compiled_glob" Metadata.default.compiledGlob
    (h "compiled_glob")
  obtain ⟨dirs, hdirs, hd⟩ := exists_orElse "source_dirs" Metadata.default.sourceDirs
    (h "source_dirs")
  obtain ⟨roots, hroots, hr⟩ := exists_orElse "implicit_root_classes"
    Metadata.default.implicitRoots (h "implicit_root_classes")
  exact ⟨⟨glob, dirs, roots⟩, Checked.ok_seq (Checked.ok_seq (Checked.ok_map hglob) hdirs) hroots,
    hg, hd, hr⟩

theorem exists_watch {layer : Assoc Value} (hl : IsLayer home layer) :
    ∃ w, Schema.orElse (.plain "watch") .default Watch.decode layer = .ok w ∧
      w.Follows (stated? layer "watch") := by
  refine exists_section hl (fun entries h => ?_) ⟨rfl, rfl⟩
  obtain ⟨enabled, henabled, he⟩ := exists_orElse "enabled" Watch.default.enabled
    (h "enabled")
  obtain ⟨debounce, hdebounce, hd⟩ := exists_orElse "debounce_ms" Watch.default.debounce
    (h "debounce_ms")
  exact ⟨⟨enabled, debounce⟩, Checked.ok_seq (Checked.ok_map henabled) hdebounce, he, hd⟩

theorem exists_analysis {layer : Assoc Value} (hl : IsLayer home layer) :
    ∃ a, Schema.orElse (.plain "analysis") .default Analysis.decode layer = .ok a ∧
      a.Follows (stated? layer "analysis") := by
  refine exists_section hl (fun entries h => ?_) rfl
  obtain ⟨window, hwindow, hw⟩ := exists_orElse "pattern_window" Analysis.default.window
    (h "pattern_window")
  exact ⟨⟨window⟩, Checked.ok_map hwindow, hw⟩

theorem exists_decodeSections {layer : Assoc Value} (hl : IsLayer home layer) :
    ∃ s, decodeSections home layer = .ok s ∧ s.FollowsAll home (stated? layer) := by
  obtain ⟨logging, hlogging, hlf⟩ := exists_logging hl
  obtain ⟨metadata, hmetadata, hmf⟩ := exists_metadata hl
  obtain ⟨watch, hwatch, hwf⟩ := exists_watch hl
  obtain ⟨analysis, hanalysis, haf⟩ := exists_analysis hl
  exact ⟨⟨logging, metadata, watch, analysis⟩,
    Checked.ok_seq (Checked.ok_seq (Checked.ok_seq (Checked.ok_map hlogging) hmetadata) hwatch)
      hanalysis, hlf, hmf, hwf, haf⟩

/-! All layers together. -/

theorem IsLayer.name_mem {layer : Assoc Value} (hl : IsLayer home layer) {entry : String × Value}
    (h : entry ∈ layer) : entry.1 ∈ sections := by
  have hkey : entry.1 ∈ layer.keys := Assoc.mem_keys_of_mem h
  obtain ⟨v, hv⟩ := Option.isSome_iff_exists.mp (Assoc.mem_keys_iff.mp hkey)
  exact (hl.known entry.1 v hv).1

theorem IsLayer.noStrangers {layer : Assoc Value} (hl : IsLayer home layer) :
    Layers.noStrangers layer = .ok () := by
  have hnone : layer.filter (fun e => !sections.contains e.1) = [] := by
    rw [List.filter_eq_nil_iff]
    intro entry h
    simpa using hl.name_mem h
  rw [Layers.noStrangers, hnone]

theorem IsLayer.get?_eq_none {layer : Assoc Value} (hl : IsLayer home layer) {name : String}
    (h : name ∉ sections) : layer.get? name = none := by
  refine Assoc.get?_eq_none fun hmem => ?_
  obtain ⟨entry, hentry, rfl⟩ := List.mem_map.mp hmem
  exact h (hl.name_mem hentry)

theorem IsLayer.ofGiven {given : Assoc Value} (hl : IsLayer home given) :
    Environment.Options.ofGiven given = .usual := by
  simp [Environment.Options.ofGiven, Environment.Options.usual, hl.get?_eq_none, sections]

theorem IsLayer.settingsIn {given : Assoc Value} (hl : IsLayer home given) :
    Environment.Options.settingsIn given = given := by
  have hnames : ∀ name ∈ sections, name ∉ Environment.Options.names := by decide
  rw [Environment.Options.settingsIn, List.filter_eq_self]
  intro entry h
  simpa using hnames entry.1 (hl.name_mem h)

theorem exists_check {l : Layers} (hu : IsLayer home l.user) (hp : IsLayer home l.project)
    (he : IsLayer home l.environment) (hg : IsLayer home l.given) :
    ∃ s, l.check home = .ok s ∧
      s.FollowsAll home (first? [l.given, l.environment, l.project, l.user]) := by
  have hc := isLayer_combined hu hp he hg
  obtain ⟨s, hs, hfollows⟩ := exists_decodeSections hc
  refine ⟨s, Checked.ok_seq (Checked.ok_map hs) hc.noStrangers, ?_⟩
  have hstated : stated? l.combined = first? [l.given, l.environment, l.project, l.user] := by
    funext name key
    exact stated?_combined hu hp he hg name key
  rwa [hstated] at hfollows

end Settings
end ScriptSense
