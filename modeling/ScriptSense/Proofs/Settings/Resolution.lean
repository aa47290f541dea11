import ScriptSense.Proofs.Disk.Paths
import ScriptSense.Proofs.Settings.Precedence

/-! Settings that are loaded from layered places. What was read once is read as the same again when it
is written out: the conditions on single settings look at the value that was read, and a home
directory is put in place of a tilde only once. Main statement: if every place says only what its
settings admit, loading succeeds, and every setting follows the first place that states it. -/
namespace ScriptSense

namespace FilePath

/-- Few enough slashes and nothing but parts, as in every path that is read from a text. -/
def IsNormal (p : FilePath) : Prop := p.slashes ≤ 2 ∧ ∀ s ∈ p.parts, IsPart s

theorem isNormal_ofText (text : String) : (ofText text).IsNormal := by
  refine ⟨?_, fun s hs => isPart_of_mem_ofText hs⟩
  change leadingSlashes text.toList ≤ 2
  rw [leadingSlashes]
  split <;> omega

theorem IsNormal.expandHome? {p home q : FilePath} (hp : p.IsNormal)
    (h : p.expandHome? home = some q) : q.IsNormal := by
  rw [FilePath.expandHome?] at h
  split at h
  · rename_i first rest _ hparts
    split at h
    · obtain rfl := Option.some.inj h
      have hhome := isNormal_ofText home.toText
      refine ⟨hhome.1, fun s hs => ?_⟩
      rcases List.mem_append.mp hs with hs | hs
      · exact hhome.2 s hs
      · exact hp.2 s (by rw [hparts]; exact List.mem_cons_of_mem _ hs)
    · split at h
      · cases h
      · obtain rfl := Option.some.inj h
        exact hp
  · obtain rfl := Option.some.inj h
    exact hp

theorem takeWhile_intercalate {parts : List String} (h : ∀ s ∈ parts, IsPart s) :
    ("/".intercalate parts).toList.takeWhile (· == '/') = [] := by
  cases parts with
  | nil => rfl
  | cons s rest =>
    obtain ⟨hne, -, hslash⟩ := h s List.mem_cons_self
    obtain ⟨c, cs, hs⟩ := List.exists_cons_of_ne_nil (mt String.toList_eq_nil_iff.mp hne)
    have hc : c ≠ '/' := by
      rintro rfl
      exact hslash (by rw [hs]; exact List.mem_cons_self)
    by_cases hr : rest = []
    · simp [hr, hs, hc]
    · rw [String.intercalate_cons_of_ne_nil hr]
      simp [String.toList_append, hs, hc]

theorem IsNormal.ofText_toText {p : FilePath} (hp : p.IsNormal) (ha : p.isAbsolute = true) :
    ofText p.toText = p := by
  have hslashes : p.slashes ≠ 0 := by simpa [isAbsolute] using ha
  have htext : p.toText =
      String.ofList (List.replicate p.slashes '/') ++ "/".intercalate p.parts := by
    simp [toText, hslashes]
  have hparts : (ofText p.toText).parts = p.parts := by
    rw [htext, parts_ofText_slashes, parts_ofText_intercalate hp.2]
  have hcount : (p.toText.toList.takeWhile (· == '/')).length = p.slashes := by
    have hall : ∀ c ∈ List.replicate p.slashes '/', (c == '/') = true := by simp
    rw [htext, String.toList_append, String.toList_ofList, List.takeWhile_append_of_pos hall,
      takeWhile_intercalate hp.2, List.append_nil, List.length_replicate]
  have hlead : (ofText p.toText).slashes = p.slashes := by
    change leadingSlashes p.toText.toList = p.slashes
    rw [leadingSlashes, hcount, if_pos hp.1]
  calc ofText p.toText = ⟨(ofText p.toText).slashes, (ofText p.toText).parts⟩ := rfl
    _ = p := by rw [hlead, hparts]

end FilePath

namespace Settings

variable {home : FilePath}

/-- A destination that is found again by its text. -/
def Destination.IsSettled : Destination → Prop
  | file path => path.IsNormal ∧ path.isAbsolute = true
  | _ => True

theorem Destination.isSettled_of_decode {v : Value} {d : Destination}
    (h : Destination.decode home v = .ok d) : d.IsSettled := by
  rw [decode] at h
  cases ht : Schema.text v with
  | failed first others =>
    rw [ht] at h
    cases h
  | ok s =>
    rw [ht, Checked.andThen] at h
    split at h
    · cases h
      trivial
    · split at h
      · cases h
        trivial
      · split at h
        · cases h
        · rename_i path hpath
          split at h
          · rename_i habsolute
            cases h
            exact ⟨(FilePath.isNormal_ofText s).expandHome? hpath, habsolute⟩
          · cases h

theorem Destination.IsSettled.decode {d : Destination} (h : d.IsSettled) :
    Destination.decode home (.str d.toText) = .ok d := by
  cases d with
  | stderr => rfl
  | stdout => rfl
  | file path =>
    obtain ⟨hnormal, habsolute⟩ := h
    have hread := hnormal.ofText_toText habsolute
    have hne : ∀ name : String, (FilePath.ofText name).isAbsolute = false → path.toText ≠ name := by
      rintro name hname rfl
      rw [hread, habsolute] at hname
      cases hname
    have hstderr : (path.toText == "stderr") = false := by
      simpa using hne "stderr" (by decide)
    have hstdout : (path.toText == "stdout") = false := by
      simpa using hne "stdout" (by decide)
    have hexpand : path.expandHome? home = some path := by
      have hslashes : path.slashes ≠ 0 := by simpa [FilePath.isAbsolute] using habsolute
      rw [FilePath.expandHome?]
      split
      · rename_i hzero _
        exact absurd hzero hslashes
      · rfl
    simp [Destination.decode, toText, Schema.text, Checked.andThen, hstderr, hstdout, hread,
      hexpand, habsolute]

theorem decode_level (level : Level) : Schema.literal levels (.str (levelName level)) = .ok level := by
  cases level <;> rfl

theorem decode_format (format : Format) :
    Schema.literal formats (.str format.name) = .ok format := by
  cases format <;> rfl

theorem Output.isSettled_of_decode {v : Value} {o : Output}
    (h : Output.decode home v = .ok o) : o.destination.IsSettled := by
  obtain ⟨_, -, hread⟩ := Schema.exists_of_record h
  obtain ⟨_, _, hrest, _, rfl⟩ := Checked.seq_eq_ok.mp hread
  obtain ⟨_, destination, hformat, hdestination, rfl⟩ := Checked.seq_eq_ok.mp hrest
  obtain ⟨_, _, rfl⟩ := Checked.map_eq_ok.mp hformat
  rcases Schema.eq_or_mem_of_orElse hdestination with rfl | ⟨_, w, _, hw⟩
  · trivial
  · exact Destination.isSettled_of_decode hw

theorem decode_maybeLevel (level : Option Level) :
    Schema.optional (Schema.literal levels) (Value.optStr (level.map levelName)) = .ok level := by
  cases level with
  | none => rfl
  | some level => cases level <;> rfl

theorem Output.decode_toValue {o : Output} (h : o.destination.IsSettled) :
    Output.decode home o.toValue = .ok o := by
  refine Checked.ok_seq (Checked.ok_seq (Checked.ok_map ?_) ?_) ?_
  · exact Schema.orElse_of_find? rfl (decode_format o.format)
  · exact Schema.orElse_of_find? rfl h.decode
  · exact Schema.orElse_of_find? rfl (decode_maybeLevel o.level)

/-! Sections. -/

theorem exists_of_mem_list {α : Type} {decode : Schema.Decoder α} {v : Value} {as : List α}
    (h : Schema.list decode v = .ok as) : ∀ a ∈ as, ∃ w, decode w = .ok a := by
  rw [Schema.list] at h
  split at h
  · rename_i items _
    generalize items.zipIdx = numbered at h
    induction numbered generalizing as with
    | nil =>
      cases h
      exact fun a ha => absurd ha List.not_mem_nil
    | cons item rest ih =>
      obtain ⟨cons, more, hfirst, hmore, rfl⟩ := Checked.seq_eq_ok.mp h
      obtain ⟨first, hone, rfl⟩ := Checked.map_eq_ok.mp hfirst
      intro a ha
      rcases List.mem_cons.mp ha with rfl | ha
      · exact ⟨item.1, Checked.below_eq_ok.mp hone⟩
      · exact ih hmore a ha
  · cases h

/-- Settings that pass when they are read from what they are written as. -/
structure Settled (s : Settings) : Prop where
  outputs : ∀ o ∈ s.logging.outputs, o.destination.IsSettled
  compiledGlob : Metadata.refuseGlob s.metadata.compiledGlob = none
  debounce : Watch.refuseDebounce s.watch.debounce = none
  window : Analysis.refuseWindow s.analysis.window = none

theorem Logging.isSettled_of_decode {v : Value} {l : Logging} (h : Logging.decode home v = .ok l) :
    ∀ o ∈ l.outputs, o.destination.IsSettled := by
  obtain ⟨_, -, hread⟩ := Schema.exists_of_record h
  obtain ⟨_, outputs, hlevel, houtputs, rfl⟩ := Checked.seq_eq_ok.mp hread
  obtain ⟨level, -, rfl⟩ := Checked.map_eq_ok.mp hlevel
  intro o ho
  rcases Schema.eq_or_mem_of_orElse houtputs with rfl | ⟨_, v, _, hlist⟩
  · obtain rfl := List.mem_singleton.mp ho
    trivial
  · obtain ⟨w, hw⟩ := exists_of_mem_list hlist o ho
    exact Output.isSettled_of_decode hw

theorem Metadata.refuseGlob_default : refuseGlob Metadata.default.compiledGlob = none := by
  have hstart : Metadata.default.compiledGlob.startsWith "/" = false := by
    rw [← Bool.not_eq_true, String.startsWith_eq_startsWith_toSlice,
      String.Slice.startsWith_string_iff]
    decide
  have hend : Metadata.default.compiledGlob.endsWith ".json" = true := by
    rw [String.endsWith_eq_endsWith_toSlice, String.Slice.endsWith_string_iff]
    decide
  rw [refuseGlob, hstart, hend]
  rfl

section

variable {α : Type} {key : Schema.Key} {decode : Schema.Decoder α} {refusal : α → Option String}
  {absent a : α} {entries : Assoc Value}

theorem refusal_of_orElse (habsent : refusal absent = none)
    (h : Schema.orElse key absent (Schema.ensuring decode refusal) entries = .ok a) :
    refusal a = none := by
  rcases Schema.eq_or_mem_of_orElse h with rfl | ⟨_, v, _, hv⟩
  · exact habsent
  · exact (Schema.ensuring_eq_ok.mp hv).2

end

theorem Metadata.refuseGlob_of_decode {v : Value} {m : Metadata} (h : Metadata.decode v = .ok m) :
    refuseGlob m.compiledGlob = none := by
  obtain ⟨_, -, hread⟩ := Schema.exists_of_record h
  obtain ⟨_, _, hrest, _, rfl⟩ := Checked.seq_eq_ok.mp hread
  obtain ⟨_, _, hfirst, _, rfl⟩ := Checked.seq_eq_ok.mp hrest
  obtain ⟨glob, hglob, rfl⟩ := Checked.map_eq_ok.mp hfirst
  exact refusal_of_orElse refuseGlob_default hglob

theorem Watch.refuseDebounce_of_decode {v : Value} {w : Watch} (h : Watch.decode v = .ok w) :
    refuseDebounce w.debounce = none := by
  obtain ⟨_, -, hread⟩ := Schema.exists_of_record h
  obtain ⟨_, debounce, henabled, hdebounce, rfl⟩ := Checked.seq_eq_ok.mp hread
  obtain ⟨_, _, rfl⟩ := Checked.map_eq_ok.mp henabled
  exact refusal_of_orElse rfl hdebounce

theorem Analysis.refuseWindow_of_decode {v : Value} {a : Analysis}
    (h : Analysis.decode v = .ok a) : refuseWindow a.window = none := by
  obtain ⟨_, -, hread⟩ := Schema.exists_of_record h
  obtain ⟨window, hwindow, rfl⟩ := Checked.map_eq_ok.mp hread
  exact refusal_of_orElse rfl hwindow

theorem settled_of_decodeSections {entries : Assoc Value} {s : Settings}
    (h : decodeSections home entries = .ok s) : s.Settled := by
  obtain ⟨_, analysis, hthree, hanalysis, rfl⟩ := Checked.seq_eq_ok.mp h
  obtain ⟨_, watch, htwo, hwatch, rfl⟩ := Checked.seq_eq_ok.mp hthree
  obtain ⟨_, metadata, hone, hmetadata, rfl⟩ := Checked.seq_eq_ok.mp htwo
  obtain ⟨logging, hlogging, rfl⟩ := Checked.map_eq_ok.mp hone
  constructor
  · rcases Schema.eq_or_mem_of_orElse hlogging with rfl | ⟨_, v, _, hv⟩
    · intro o ho
      obtain rfl := List.mem_singleton.mp ho
      trivial
    · exact Logging.isSettled_of_decode hv
  · rcases Schema.eq_or_mem_of_orElse hmetadata with rfl | ⟨_, v, _, hv⟩
    · exact Metadata.refuseGlob_default
    · exact Metadata.refuseGlob_of_decode hv
  · rcases Schema.eq_or_mem_of_orElse hwatch with rfl | ⟨_, v, _, hv⟩
    · rfl
    · exact Watch.refuseDebounce_of_decode hv
  · rcases Schema.eq_or_mem_of_orElse hanalysis with rfl | ⟨_, v, _, hv⟩
    · rfl
    · exact Analysis.refuseWindow_of_decode hv

theorem Logging.decode_toValue {l : Logging} (h : ∀ o ∈ l.outputs, o.destination.IsSettled) :
    Logging.decode home l.toValue = .ok l := by
  refine Checked.ok_seq (Checked.ok_map ?_) ?_
  · exact Schema.orElse_of_find? rfl (decode_level l.level)
  · exact Schema.orElse_of_find? rfl (Schema.list_map fun o ho => Output.decode_toValue (h o ho))

theorem Metadata.decode_toValue {m : Metadata} (h : refuseGlob m.compiledGlob = none) :
    Metadata.decode m.toValue = .ok m := by
  have hlist := Schema.undoes_text.list.decode_write
  refine Checked.ok_seq (Checked.ok_seq (Checked.ok_map ?_) ?_) ?_
  · exact Schema.orElse_of_find? rfl (Schema.ensuring_eq_ok.mpr ⟨rfl, h⟩)
  · exact Schema.orElse_of_find? rfl (hlist m.sourceDirs)
  · exact Schema.orElse_of_find? rfl (hlist m.implicitRoots)

theorem Watch.decode_toValue {w : Watch} (h : refuseDebounce w.debounce = none) :
    Watch.decode w.toValue = .ok w := by
  refine Checked.ok_seq (Checked.ok_map ?_) ?_
  · exact Schema.orElse_of_find? rfl (Schema.undoes_truth.decode_write w.enabled)
  · exact Schema.orElse_of_find? rfl (Schema.ensuring_eq_ok.mpr ⟨rfl, h⟩)

theorem Analysis.decode_toValue {a : Analysis} (h : refuseWindow a.window = none) :
    Analysis.decode a.toValue = .ok a :=
  Checked.ok_map (Schema.orElse_of_find? rfl (Schema.ensuring_eq_ok.mpr ⟨rfl, h⟩))

theorem Settled.decode_toValue {s : Settings} (h : s.Settled) :
    Settings.decode home s.toValue = .ok s := by
  refine Checked.ok_seq (Checked.ok_seq (Checked.ok_seq (Checked.ok_map ?_) ?_) ?_) ?_
  · exact Schema.orElse_of_find? rfl (Logging.decode_toValue h.outputs)
  · exact Schema.orElse_of_find? rfl (Metadata.decode_toValue h.compiledGlob)
  · exact Schema.orElse_of_find? rfl (Watch.decode_toValue h.debounce)
  · exact Schema.orElse_of_find? rfl (Analysis.decode_toValue h.window)

theorem settled_of_check {l : Layers} {s : Settings} (h : l.check home = .ok s) : s.Settled := by
  obtain ⟨_, _, hread, _, rfl⟩ := Checked.seq_eq_ok.mp h
  obtain ⟨s, hsections, rfl⟩ := Checked.map_eq_ok.mp hread
  exact settled_of_decodeSections hsections

/-- What has passed passes once more. -/
theorem kept_of_check {l : Layers} {s : Settings} (h : l.check home = .ok s) :
    kept (decode home s.toValue) = .ok s := by
  rw [(settled_of_check h).decode_toValue, kept]

theorem exists_load {user project : File} {environ : Assoc String} {G P E K : Assoc Value}
    (huser : user.stated = .ok ⟨G, true⟩) (hproject : project.stated = .ok ⟨P, true⟩)
    (henvironment : Environment.layer .usual environ = .ok E) (hG : IsLayer home G)
    (hP : IsLayer home P) (hE : IsLayer home E) (hK : IsLayer home K) :
    ∃ s, load home user project environ K = .ok s ∧ s.FollowsAll home (first? [K, E, P, G]) ∧
      s.Settled := by
  obtain ⟨s, hs, hfollows⟩ := exists_check (l := ⟨G, P, E, K⟩) hG hP hE hK
  refine ⟨s, ?_, hfollows, settled_of_check hs⟩
  have hroot : K.has rootName = false := by
    rw [← Assoc.isSome_get?, hK.get?_eq_none (by decide)]
    rfl
  simp [load, hroot, huser, hproject, hK.ofGiven, henvironment, hK.settingsIn, hs, bind,
    Except.bind, kept_of_check hs]

/-- Settings are loaded, each from the first of the given values, the environment, the file of the
project and that of the user that states it, and they pass when they are checked again. Below them
is the law of one mapping laid over another: every leaf of the upper one stays, and a leaf of the
lower one stays unless the upper one has its path or a leaf on the way. -/
theorem load_resolves (home : FilePath) {user project : File} {environ : Assoc String}
    {G P E K : Assoc Value} (huser : user.stated = .ok ⟨G, true⟩)
    (hproject : project.stated = .ok ⟨P, true⟩)
    (henvironment : Environment.layer .usual environ = .ok E) (hG : IsLayer home G)
    (hP : IsLayer home P) (hE : IsLayer home E) (hK : IsLayer home K) :
    (∃ s, load home user project environ K = .ok s ∧ s.FollowsAll home (first? [K, E, P, G]) ∧
      Settings.decode home s.toValue = .ok s) ∧
    ∀ base top : Value, base.rows?.isSome = true → top.rows?.isSome = true → top.Tidy →
      ∀ path w, (Value.merge (some base) top).Leaf path w ↔
        top.Leaf path w ∨ (base.Leaf path w ∧ ¬ top.Covers path) := by
  obtain ⟨s, hload, hfollows, hsettled⟩ := exists_load huser hproject henvironment hG hP hE hK
  exact ⟨⟨s, hload, hfollows, hsettled.decode_toValue⟩,
    fun base top hbase htop htidy => Value.leaf_merge_iff hbase htop htidy⟩

def statesNumber (name key : String) (n : Int) : Except Failure Stated → Bool
  | .ok ⟨[(name', .map [(key', .int n')])], true⟩ => name' == name && key' == key && n' == n
  | _ => false

theorem eq_of_statesNumber {name key : String} {n : Int} {said : Except Failure Stated}
    (h : statesNumber name key n said = true) :
    said = .ok ⟨[(name, .map [(key, .int n)])], true⟩ := by
  unfold statesNumber at h
  split at h
  · simp only [Bool.and_eq_true, beq_iff_eq] at h
    obtain ⟨⟨rfl, rfl⟩, rfl⟩ := h
    rfl
  · cases h

/-- Two files state the delay, the environment a truth value and the caller a window. -/
theorem load_fourPlaces :
    let bytes (text : String) : List UInt8 := text.toList.map fun c => c.toNat.toUInt8
    ∃ s, load ⟨1, ["home"]⟩ (.content "user" (bytes "watch: {debounce_ms: 5}"))
        (.content "project" (bytes "watch: {debounce_ms: 7}")) [("QXLENS__WATCH__ENABLED", "false")]
        [("analysis", .map [("pattern_window", .int 64)])] = .ok s ∧
      s.watch = ⟨false, 7⟩ ∧ s.analysis = ⟨64⟩ ∧ s.logging.level = .info ∧
      Settings.decode ⟨1, ["home"]⟩ s.toValue = .ok s ∧
      (Value.merge (some (.map [("watch", .map [("debounce_ms", .int 5)])]))
        (.map [("watch", .map [("enabled", .bool false)])])).Leaf
          [.str "watch", .str "debounce_ms"] (.int 5) := by
  intro bytes
  have huser : (File.content "user" (bytes "watch: {debounce_ms: 5}")).stated =
      .ok ⟨[("watch", .map [("debounce_ms", .int 5)])], true⟩ :=
    eq_of_statesNumber (by decide +kernel)
  have hproject : (File.content "project" (bytes "watch: {debounce_ms: 7}")).stated =
      .ok ⟨[("watch", .map [("debounce_ms", .int 7)])], true⟩ :=
    eq_of_statesNumber (by decide +kernel)
  have henvironment : Environment.layer .usual [("QXLENS__WATCH__ENABLED", "false")] =
      .ok [("watch", .map [("enabled", .str "false")])] := by rfl
  have hdebounce : ∀ n : Int, ¬ n < 0 →
      IsLayer ⟨1, ["home"]⟩ [("watch", .map [("debounce_ms", .int n)])] := by
    intro n hn
    refine isLayer_single (by decide) ⟨n, Schema.ensuring_eq_ok.mpr ⟨rfl, ?_⟩⟩
    simp [Watch.refuseDebounce, hn]
  have henabled : IsLayer ⟨1, ["home"]⟩ [("watch", .map [("enabled", .str "false")])] :=
    isLayer_single (by decide) ⟨false, rfl⟩
  have hwindow : IsLayer ⟨1, ["home"]⟩ [("analysis", .map [("pattern_window", .int 64)])] :=
    isLayer_single (by decide) ⟨64, rfl⟩
  obtain ⟨⟨s, hload, hfollows, hagain⟩, hleaf⟩ := load_resolves ⟨1, ["home"]⟩ huser hproject
    henvironment (hdebounce 5 (by decide)) (hdebounce 7 (by decide)) henabled hwindow
  have hlevel : s.logging.level = .info := hfollows.logging.level
  have hfalse : Schema.truth (.str "false") = .ok s.watch.enabled := hfollows.watch.enabled
  have hseven : Schema.ensuring Schema.integer Watch.refuseDebounce (.int 7) =
      .ok s.watch.debounce := hfollows.watch.debounce
  have hsixtyFour : Schema.ensuring Schema.integer Analysis.refuseWindow (.int 64) =
      .ok s.analysis.window := hfollows.analysis
  have hwatch : s.watch = ⟨false, 7⟩ := by
    have henabled : false = s.watch.enabled := Checked.ok.inj hfalse
    have hdebounce : 7 = s.watch.debounce := Checked.ok.inj hseven
    calc s.watch = ⟨s.watch.enabled, s.watch.debounce⟩ := rfl
      _ = ⟨false, 7⟩ := by rw [← henabled, ← hdebounce]
  have hanalysis : s.analysis = ⟨64⟩ := by
    have hwindow : 64 = s.analysis.window := Checked.ok.inj hsixtyFour
    calc s.analysis = ⟨s.analysis.window⟩ := rfl
      _ = ⟨64⟩ := by rw [← hwindow]
  have hcovers : ¬ (Value.map [("watch", .map [("enabled", .bool false)])]).Covers
      [.str "watch", .str "debounce_ms"] := by
    rw [Value.covers_cons_of_child? (v := .map [("enabled", .bool false)]) rfl rfl]
    exact Value.not_covers_of_child? rfl rfl []
  have htidy : (Value.map [("watch", .map [("enabled", .bool false)])]).Tidy :=
    ((Value.tidy_of_rows?_none rfl).single "enabled").single "watch"
  exact ⟨s, hload, hwatch, hanalysis, hlevel, hagain,
    (hleaf _ _ rfl rfl htidy _ _).mpr (.inr ⟨⟨rfl, rfl⟩, hcovers⟩)⟩

end Settings
end ScriptSense
