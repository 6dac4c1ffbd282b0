import Cantools.Framework.Interaction
import Cantools.Xtask.Codegen

/-!
# Generated files

`xtask codegen` reads three specifications, generates their texts and writes each text to its file
unless the file has it already. The files are those of a parameter `SourceFiles`. Of the six that a
run has to do with, what was written is read back, and a write to one leaves the others alone
(`SourceFiles.SoundOn`). How a specification is read from its text is a parameter too (`Toml`).

All specifications are read before anything is written, and the only text that can be missing is
the first one, so a run either leaves the files as they were or stops at a write
(`codegen_cases`). A run that succeeds leaves files that mean the specifications (`Means`), and
running it again writes nothing (`codegen_regenerates`).
-/

namespace Cantools.Xtask

open Interaction Program Rust

abbrev Path := List Char

/-- The operations on files, in a state of all files. -/
structure SourceFiles (σ ε : Type) where
  readToString : σ → Path → Except ε (List Char)
  write : σ → Path → List Char → Except ε Unit × σ

/-- These paths are those of different plain files: what was written is read back, and a write,
successful or not, leaves the other files alone. -/
structure SourceFiles.SoundOn {σ ε : Type} (files : SourceFiles σ ε) (paths : List Path) :
    Prop where
  read_write : ∀ path ∈ paths, ∀ s text s', files.write s path text = (.ok (), s') →
    files.readToString s' path = .ok text
  frame : ∀ path ∈ paths, ∀ other ∈ paths, other ≠ path → ∀ s text,
    files.readToString (files.write s path text).2 other = files.readToString s other

/-- `toml::from_str` of the three specifications. -/
structure Toml (δ : Type) where
  uds : List Char → Except δ UdsSpec
  obd : List Char → Except δ ObdSpec
  j1939 : List Char → Except δ J1939Spec

inductive XtaskError (ε δ : Type) where
  | io (error : ε)
  | toml (error : δ)

/-- A write that was made. -/
structure Written where
  path : Path
  text : List Char

section

variable {σ ε δ : Type} (files : SourceFiles σ ε)

/-- A program of the task runner: its writes, and how it ends. -/
abbrev Task (σ ε δ α : Type) := Interaction σ Written (Fault (XtaskError ε δ)) α

/-- A result that does not depend on the files. -/
def ofRun {α : Type} : Run (XtaskError ε δ) α → Task σ ε δ α
  | .ok a => pure a
  | .error fault => fail fault

/-- Read a file and parse what it has. -/
def readSpec {α : Type} (path : Path) (parse : List Char → Except δ α) : Task σ ε δ α := do
  let text ← look fun s => files.readToString s path
  match text with
  | .error e => fail (.error (.io e))
  | .ok text =>
    match parse text with
    | .error e => fail (.error (.toml e))
    | .ok spec => pure spec

/-- `fs::write` -/
def fsWrite (path : Path) (content : List Char) : Task σ ε δ Unit := do
  let result ← ask (fun s => files.write s path content) fun _ => [{ path, text := content }]
  match result with
  | .error e => fail (.error (.io e))
  | .ok () => pure ()

def writeIfChanged (path : Path) (content : List Char) : Task σ ε δ Unit := do
  let text ← look fun s => (files.readToString s path).toOption
  -- a file that cannot be read is written
  if text = some content then pure () else fsWrite files path content

/-- `Path::join` of a directory whose path does not end with a slash. -/
def join (root : Path) (name : String) : Path := root ++ '/' :: name.toList

def codegen (toml : Toml δ) (isPrintable : Char → Bool) (root : Path) : Task σ ε δ Unit := do
  let uds ← readSpec files (join root "spec-data/uds/services.toml") toml.uds
  let obd ← readSpec files (join root "spec-data/obd/pids.toml") toml.obd
  let j1939 ← readSpec files (join root "spec-data/j1939/pgns.toml") toml.j1939
  let udsText ← ofRun (udsGenerated isPrintable uds)
  writeIfChanged files (join root "crates/cantools-uds/src/generated.rs") udsText
  writeIfChanged files (join root "crates/cantools-obd/src/generated.rs")
    (obdGenerated isPrintable obd)
  writeIfChanged files (join root "crates/cantools-j1939/src/generated.rs")
    (j1939Generated isPrintable j1939)

/-! ### One file -/

variable {files}

theorem readSpec_ok {α : Type} {path : Path} {parse : List Char → Except δ α} {s : σ}
    {text : List Char} {spec : α} (h_text : files.readToString s path = .ok text)
    (h_spec : parse text = .ok spec) :
    (readSpec files path parse : Task σ ε δ α) s = ([], .ok spec, s) := by
  have h_look : (look fun s => files.readToString s path : Task σ ε δ _) s
      = ([], .ok (.ok text), s) := by
    rw [look, h_text]
  unfold readSpec
  rw [bind_apply_silent h_look]
  simp only [h_spec]
  rfl

/-- Reading a specification changes nothing. -/
theorem readSpec_cases {α : Type} (path : Path) (parse : List Char → Except δ α) (s : σ) :
    (∃ fault, (readSpec files path parse : Task σ ε δ α) s = ([], .error fault, s)) ∨
    ∃ text spec, files.readToString s path = .ok text ∧ parse text = .ok spec ∧
      (readSpec files path parse : Task σ ε δ α) s = ([], .ok spec, s) := by
  have h_look : (look fun s => files.readToString s path : Task σ ε δ _) s
      = ([], .ok (files.readToString s path), s) := rfl
  cases h_text : files.readToString s path with
  -- the file cannot be read
  | error e =>
    refine .inl ⟨.error (.io e), ?_⟩
    unfold readSpec
    rw [bind_apply_silent h_look, h_text]
    rfl
  | ok text =>
    cases h_spec : parse text with
    -- its text is no specification
    | error e =>
      refine .inl ⟨.error (.toml e), ?_⟩
      unfold readSpec
      rw [bind_apply_silent h_look, h_text]
      simp only [h_spec]
      rfl
    | ok spec => exact .inr ⟨text, spec, rfl, h_spec, readSpec_ok h_text h_spec⟩

/-- A file that has its content is left alone. -/
theorem writeIfChanged_idle {path : Path} {content : List Char} {s : σ}
    (h : files.readToString s path = .ok content) :
    (writeIfChanged files path content : Task σ ε δ Unit) s = ([], .ok (), s) := by
  have h_look : (look fun s => (files.readToString s path).toOption : Task σ ε δ _) s
      = ([], .ok (some content), s) := by
    rw [look, h]
    rfl
  unfold writeIfChanged
  rw [bind_apply_silent h_look, if_pos rfl]
  rfl

/-- **One file.** It has its content, or an I/O error is the end; no other file is written. -/
theorem writeIfChanged_cases {paths : List Path} (h_files : files.SoundOn paths) {path : Path}
    (h_path : path ∈ paths) (content : List Char) (s : σ) :
    ∃ log result s', (writeIfChanged files path content : Task σ ε δ Unit) s = (log, result, s') ∧
      (∀ w ∈ log, w.path = path) ∧
      (∀ other ∈ paths, other ≠ path →
        files.readToString s' other = files.readToString s other) ∧
      (result = .ok () ∧ files.readToString s' path = .ok content ∨
        ∃ e, result = .error (.error (.io e))) := by
  by_cases h_same : files.readToString s path = .ok content
  · exact ⟨_, _, _, writeIfChanged_idle h_same, List.forall_mem_nil _, fun _ _ _ => rfl,
      .inl ⟨rfl, h_same⟩⟩
  · -- the file has another text, or none
    have h_text : (files.readToString s path).toOption ≠ some content := by
      intro h
      cases h_read : files.readToString s path with
      | error e =>
        rw [h_read] at h
        cases h
      | ok text =>
        rw [h_read] at h
        cases h
        exact h_same h_read
    have h_look : (look fun s => (files.readToString s path).toOption : Task σ ε δ _) s
        = ([], .ok (files.readToString s path).toOption, s) := rfl
    -- the other files are as before
    have h_frame : ∀ other ∈ paths, other ≠ path →
        files.readToString (files.write s path content).2 other = files.readToString s other :=
      fun other h_other h_ne => h_files.frame path h_path other h_other h_ne s content
    have h_log : ∀ w ∈ [(⟨path, content⟩ : Written)], w.path = path :=
      List.forall_mem_singleton.mpr rfl
    -- the write is made; what it answers is the result
    rcases h_write : files.write s path content with ⟨_ | _, s'⟩
    all_goals rw [h_write] at h_frame
    · next e =>
      refine ⟨[⟨path, content⟩], .error (.error (.io e)), s', ?_, h_log, h_frame, .inr ⟨e, rfl⟩⟩
      have h_ask : (ask (fun s => files.write s path content) fun _ =>
          [{ path, text := content }] : Task σ ε δ _) s
          = ([⟨path, content⟩], .ok (.error e), s') := by
        rw [ask, h_write]
      unfold writeIfChanged fsWrite
      rw [bind_apply_silent h_look, if_neg h_text, bind_apply_ok h_ask]
      rfl
    · next u =>
      have h_content := h_files.read_write path h_path _ _ _ h_write
      refine ⟨[⟨path, content⟩], .ok (), s', ?_, h_log, h_frame, .inl ⟨rfl, h_content⟩⟩
      have h_ask : (ask (fun s => files.write s path content) fun _ =>
          [{ path, text := content }] : Task σ ε δ _) s
          = ([⟨path, content⟩], .ok (.ok ()), s') := by
        rw [ask, h_write]
      unfold writeIfChanged fsWrite
      rw [bind_apply_silent h_look, if_neg h_text, bind_apply_ok h_ask]
      rfl

/-! ### Files in a row -/

/-- The file has the text. -/
def Holds (files : SourceFiles σ ε) (s : σ) (w : Written) : Prop :=
  files.readToString s w.path = .ok w.text

variable (files) in
/-- Files kept up to date one after the other. -/
def writeAll (ws : List Written) : Task σ ε δ Unit :=
  scan (fun w => writeIfChanged files w.path w.text) ws

theorem writeAll_idle {ws : List Written} {s : σ} (h : ∀ w ∈ ws, Holds files s w) :
    (writeAll files ws : Task σ ε δ Unit) s = ([], .ok (), s) := by
  induction ws with
  | nil => rfl
  | cons w ws ih =>
    unfold writeAll scan
    rw [bind_apply_silent (writeIfChanged_idle (h w (List.mem_cons_self ..)))]
    exact ih fun v h_v => h v (List.mem_cons_of_mem _ h_v)

/-- **All files.** They have their texts, or the run stops at one of them: those before it have
their texts, and no other file but that one is written. -/
theorem writeAll_cases {paths : List Path} (h_files : files.SoundOn paths) {ws : List Written}
    (h_paths : ∀ path ∈ ws.map Written.path, path ∈ paths)
    (h_distinct : (ws.map Written.path).Nodup) (s : σ) :
    ∃ log result s', (writeAll files ws : Task σ ε δ Unit) s = (log, result, s') ∧
      (∀ w ∈ log, w.path ∈ ws.map Written.path) ∧
      (∀ other ∈ paths, other ∉ ws.map Written.path →
        files.readToString s' other = files.readToString s other) ∧
      (result = .ok () ∧ (∀ w ∈ ws, Holds files s' w) ∨
        ∃ before w after e, ws = before ++ w :: after ∧ result = .error (.error (.io e)) ∧
          (∀ b ∈ before, Holds files s' b) ∧
          ∀ v ∈ after, files.readToString s' v.path = files.readToString s v.path) := by
  induction ws generalizing s with
  | nil => exact ⟨[], .ok (), s, rfl, by simp, fun _ _ _ => rfl, .inl ⟨rfl, by simp⟩⟩
  | cons w ws ih =>
    rw [List.map_cons, List.nodup_cons] at h_distinct
    obtain ⟨h_new, h_distinct⟩ := h_distinct
    obtain ⟨h_path, h_paths⟩ := List.forall_mem_cons.mp h_paths
    -- the first file is none of the others
    have h_others : ∀ v ∈ ws, v.path ≠ w.path := fun v h_v h_eq =>
      h_new (h_eq ▸ List.mem_map_of_mem h_v)
    have h_laterPath : ∀ v ∈ ws, v.path ∈ paths := fun v h_v =>
      h_paths _ (List.mem_map_of_mem h_v)
    obtain ⟨log, result, middle, h_run, h_log, h_frame, h_end⟩ :=
      @writeIfChanged_cases σ ε δ files paths h_files w.path h_path w.text s
    -- the first file is up to date, and the others are written
    rcases h_end with ⟨rfl, h_holds⟩ | ⟨e, rfl⟩
    · obtain ⟨later, result, s', h_later, h_laterLog, h_laterFrame, h_laterEnd⟩ :=
        ih h_paths h_distinct middle
      refine ⟨log ++ later, result, s', ?_, ?_, ?_, ?_⟩
      · unfold writeAll at h_later ⊢
        rw [scan, bind_apply_ok h_run, h_later]
      · intro v h_v
        rw [List.map_cons, List.mem_cons]
        exact (List.mem_append.mp h_v).imp (h_log v) (h_laterLog v)
      · intro other h_mem h_other
        rw [List.map_cons, List.mem_cons, not_or] at h_other
        rw [h_laterFrame other h_mem h_other.2, h_frame other h_mem h_other.1]
      · -- the later writes leave the first file alone, as its path is none of theirs
        have h_first : Holds files s' w := by
          rw [Holds, h_laterFrame _ h_path h_new]
          exact h_holds
        rcases h_laterEnd with ⟨h_ok, h_all⟩ |
          ⟨before, v, after, e, rfl, h_error, h_before, h_after⟩
        · exact .inl ⟨h_ok, List.forall_mem_cons.mpr ⟨h_first, h_all⟩⟩
        · refine .inr ⟨w :: before, v, after, e, rfl, h_error,
            List.forall_mem_cons.mpr ⟨h_first, h_before⟩, fun u h_u => ?_⟩
          have h_mem := List.mem_append_right before (List.mem_cons_of_mem v h_u)
          rw [h_after u h_u]
          exact h_frame _ (h_laterPath u h_mem) (h_others u h_mem)
    · -- the run stops at the first file
      refine ⟨log, _, middle, ?_, ?_, ?_, .inr ⟨[], w, ws, e, rfl, rfl, by simp, ?_⟩⟩
      · unfold writeAll
        rw [scan, bind_apply_error h_run]
      · exact fun v h_v => List.mem_cons.mpr (.inl (h_log v h_v))
      · intro other h_mem h_other
        rw [List.map_cons, List.mem_cons, not_or] at h_other
        exact h_frame other h_mem h_other.1
      · exact fun v h_v => h_frame _ (h_laterPath v h_v) (h_others v h_v)

/-! ### The whole run -/

variable {toml : Toml δ} {isPrintable : Char → Bool} {root : Path}

/-- The specifications that the files have. -/
structure Specs (files : SourceFiles σ ε) (toml : Toml δ) (root : Path) (s : σ) (uds : UdsSpec)
    (obd : ObdSpec) (j1939 : J1939Spec) : Prop where
  uds : ∃ text, files.readToString s (join root "spec-data/uds/services.toml") = .ok text ∧
    toml.uds text = .ok uds
  obd : ∃ text, files.readToString s (join root "spec-data/obd/pids.toml") = .ok text ∧
    toml.obd text = .ok obd
  j1939 : ∃ text, files.readToString s (join root "spec-data/j1939/pgns.toml") = .ok text ∧
    toml.j1939 text = .ok j1939

/-- The files that are generated, in order. -/
def generatedFiles (isPrintable : Char → Bool) (root : Path) (udsText : List Char) (obd : ObdSpec)
    (j1939 : J1939Spec) : List Written :=
  [⟨join root "crates/cantools-uds/src/generated.rs", udsText⟩,
    ⟨join root "crates/cantools-obd/src/generated.rs", obdGenerated isPrintable obd⟩,
    ⟨join root "crates/cantools-j1939/src/generated.rs", j1939Generated isPrintable j1939⟩]

theorem join_injective (root : Path) : Function.Injective (join root) := fun _ _ h =>
  String.toList_inj.mp (List.cons.inj (List.append_cancel_left h)).2

def specNames : List String :=
  ["spec-data/uds/services.toml", "spec-data/obd/pids.toml", "spec-data/j1939/pgns.toml"]

def generatedNames : List String :=
  ["crates/cantools-uds/src/generated.rs", "crates/cantools-obd/src/generated.rs",
    "crates/cantools-j1939/src/generated.rs"]

/-- The files that a run reads or writes. -/
def usedPaths (root : Path) : List Path := (specNames ++ generatedNames).map (join root)

theorem path_generatedFiles (udsText : List Char) (obd : ObdSpec) (j1939 : J1939Spec) :
    (generatedFiles isPrintable root udsText obd j1939).map Written.path
      = generatedNames.map (join root) := rfl

theorem distinct_generatedFiles (udsText : List Char) (obd : ObdSpec) (j1939 : J1939Spec) :
    ((generatedFiles isPrintable root udsText obd j1939).map Written.path).Nodup := by
  rw [path_generatedFiles]
  exact (by decide : generatedNames.Nodup).map (join_injective root)

theorem not_generated {name : String} (udsText : List Char) (obd : ObdSpec) (j1939 : J1939Spec)
    (h : name ∉ generatedNames) :
    join root name ∉ (generatedFiles isPrintable root udsText obd j1939).map Written.path := by
  rw [path_generatedFiles, List.mem_map]
  rintro ⟨other, h_other, h_eq⟩
  exact h (join_injective root h_eq ▸ h_other)

/-- A last step that gives nothing may be left out. -/
theorem bind_pure_unit (p : Task σ ε δ Unit) : (p >>= fun _ => pure ()) = p := by
  funext s
  rcases h : p s with ⟨log, _ | _, s'⟩
  · exact bind_apply_error h
  · rw [bind_apply_ok h]
    simp [pure_apply]

theorem codegen_of_specs {s : σ} {uds : UdsSpec} {obd : ObdSpec} {j1939 : J1939Spec}
    {udsText : List Char} (h : Specs files toml root s uds obd j1939)
    (h_text : (udsGenerated isPrintable uds : Run (XtaskError ε δ) _) = .ok udsText) :
    codegen files toml isPrintable root s
      = writeAll files (generatedFiles isPrintable root udsText obd j1939) s := by
  obtain ⟨udsSpec, h_udsText, h_uds⟩ := h.uds
  obtain ⟨obdSpec, h_obdText, h_obd⟩ := h.obd
  obtain ⟨j1939Spec, h_j1939Text, h_j1939⟩ := h.j1939
  -- the text of the services is the only one that could panic
  have h_ofRun : (ofRun (udsGenerated isPrintable uds) : Task σ ε δ _) s
      = ([], .ok udsText, s) := by
    rw [h_text]
    rfl
  unfold codegen
  rw [bind_apply_silent (readSpec_ok h_udsText h_uds),
    bind_apply_silent (readSpec_ok h_obdText h_obd),
    bind_apply_silent (readSpec_ok h_j1939Text h_j1939), bind_apply_silent h_ofRun]
  unfold writeAll generatedFiles
  simp only [scan, bind_pure_unit]

/-- A run fails before it writes anything, or it is one of writes only. -/
theorem codegen_cases (s : σ) :
    (∃ fault, codegen files toml isPrintable root s = ([], .error fault, s)) ∨
    ∃ uds obd j1939 udsText, Specs files toml root s uds obd j1939 ∧
      (udsGenerated isPrintable uds : Run (XtaskError ε δ) _) = .ok udsText := by
  -- three files are read, each of which may be missing or malformed
  obtain ⟨fault, h⟩ | ⟨udsSpec, uds, h_udsText, h_uds, h_first⟩ :=
    @readSpec_cases σ ε δ files _ (join root "spec-data/uds/services.toml") toml.uds s
  · exact .inl ⟨fault, bind_apply_error h⟩
  obtain ⟨fault, h⟩ | ⟨obdSpec, obd, h_obdText, h_obd, h_second⟩ :=
    @readSpec_cases σ ε δ files _ (join root "spec-data/obd/pids.toml") toml.obd s
  · refine .inl ⟨fault, ?_⟩
    unfold codegen
    rw [bind_apply_silent h_first]
    exact bind_apply_error h
  obtain ⟨fault, h⟩ | ⟨j1939Spec, j1939, h_j1939Text, h_j1939, h_third⟩ :=
    @readSpec_cases σ ε δ files _ (join root "spec-data/j1939/pgns.toml") toml.j1939 s
  · refine .inl ⟨fault, ?_⟩
    unfold codegen
    rw [bind_apply_silent h_first, bind_apply_silent h_second]
    exact bind_apply_error h
  -- only the text of the first specification can be missing
  cases h_text : (udsGenerated isPrintable uds : Run (XtaskError ε δ) _) with
  | error fault =>
    refine .inl ⟨fault, ?_⟩
    have h_ofRun : (ofRun (udsGenerated isPrintable uds) : Task σ ε δ _) s
        = ([], .error fault, s) := by
      rw [h_text]
      rfl
    unfold codegen
    rw [bind_apply_silent h_first, bind_apply_silent h_second, bind_apply_silent h_third]
    exact bind_apply_error h_ofRun
  | ok udsText =>
    exact .inr ⟨uds, obd, j1939, udsText, ⟨⟨_, h_udsText, h_uds⟩, ⟨_, h_obdText, h_obd⟩,
      ⟨_, h_j1939Text, h_j1939⟩⟩, h_text⟩

/-- The files as Rust reads them: their constants are the entries of the specifications. -/
structure Means (files : SourceFiles σ ε) (root : Path) (s : σ) (uds : UdsSpec) (obd : ObdSpec)
    (j1939 : J1939Spec) : Prop where
  uds : ∃ text services negativeResponses,
    files.readToString s (join root "crates/cantools-uds/src/generated.rs") = .ok text ∧
    numbered NamedByte.sid uds.services = some services ∧
    numbered NamedByte.code uds.negativeResponses = some negativeResponses ∧
    constant text "GENERATED_SERVICES".toList = some (services.map byteRow) ∧
    constant text "GENERATED_NEGATIVE_RESPONSES".toList = some (negativeResponses.map byteRow)
  obd : ∃ text,
    files.readToString s (join root "crates/cantools-obd/src/generated.rs") = .ok text ∧
    constant text "GENERATED_PIDS".toList = some (obd.pids.map pidRow)
  j1939 : ∃ text,
    files.readToString s (join root "crates/cantools-j1939/src/generated.rs") = .ok text ∧
    constant text "GENERATED_PGNS".toList = some (j1939.pgns.map pgnRow)

theorem means_of_holds {s : σ} {uds : UdsSpec} {obd : ObdSpec} {j1939 : J1939Spec}
    {udsText : List Char}
    (h_text : (udsGenerated isPrintable uds : Run (XtaskError ε δ) _) = .ok udsText)
    (h : ∀ w ∈ generatedFiles isPrintable root udsText obd j1939, Holds files s w) :
    Means files root s uds obd j1939 := by
  obtain ⟨h_uds, h_obd, h_j1939⟩ :
      Holds files s _ ∧ Holds files s _ ∧ Holds files s _ := by
    simpa [generatedFiles] using h
  refine ⟨?_, ⟨_, h_obd, constant_obd isPrintable obd⟩,
    ⟨_, h_j1939, constant_j1939 isPrintable j1939⟩⟩
  obtain ⟨h_panic, -⟩ |
      ⟨text, services, responses, h_ok, h_services, h_responses, h_first, h_second⟩ :=
    udsGenerated_cases (ε := XtaskError ε δ) isPrintable uds
  · cases h_panic.symm.trans h_text
  · cases h_ok.symm.trans h_text
    exact ⟨_, services, responses, h_uds, h_services, h_responses, h_first, h_second⟩

/-- **Regenerating.** A run either fails and leaves all files as they were, or it has read three
specifications, and writes to no file but the three that are generated. Then it ends with generated
files that mean the specifications, which are as before, and running it again writes nothing; or it
stops at a write that fails, with the files before that one up to date and those behind it as
before. -/
theorem codegen_regenerates (root : Path) (h_files : files.SoundOn (usedPaths root))
    (toml : Toml δ) (isPrintable : Char → Bool) (s : σ) :
    (∃ fault, codegen files toml isPrintable root s = ([], .error fault, s)) ∨
    ∃ uds obd j1939 log result s', Specs files toml root s uds obd j1939 ∧
      codegen files toml isPrintable root s = (log, result, s') ∧
      (∀ w ∈ log, ∃ name ∈ generatedNames, w.path = join root name) ∧
      (∀ name ∈ specNames,
        files.readToString s' (join root name) = files.readToString s (join root name)) ∧
      (result = .ok () ∧ Means files root s' uds obd j1939 ∧
          codegen files toml isPrintable root s' = ([], .ok (), s') ∨
        ∃ udsText before w after e,
          (udsGenerated isPrintable uds : Run (XtaskError ε δ) _) = .ok udsText ∧
          generatedFiles isPrintable root udsText obd j1939 = before ++ w :: after ∧
          result = .error (.error (.io e)) ∧ (∀ b ∈ before, Holds files s' b) ∧
          ∀ v ∈ after, files.readToString s' v.path = files.readToString s v.path) := by
  -- a specification that cannot be read is the end, before any file is written
  obtain h_fault | ⟨uds, obd, j1939, udsText, h_specs, h_text⟩ :=
    @codegen_cases σ ε δ files toml isPrintable root s
  · exact .inl h_fault
  -- the generated files are among those of which the file system is asked anything
  have h_paths : ∀ path ∈ (generatedFiles isPrintable root udsText obd j1939).map Written.path,
      path ∈ usedPaths root := by
    intro path h_path
    rw [path_generatedFiles] at h_path
    rw [usedPaths, List.map_append]
    exact List.mem_append_right _ h_path
  -- what the writes do, one file after the other
  obtain ⟨log, result, s', h_run, h_log, h_frame, h_end⟩ := @writeAll_cases σ ε δ files
    (usedPaths root) h_files (generatedFiles isPrintable root udsText obd j1939) h_paths
    (distinct_generatedFiles udsText obd j1939) s
  -- every write is to a generated file
  have h_writes : ∀ w ∈ log, ∃ name ∈ generatedNames, w.path = join root name := by
    intro w h_w
    have h_path := h_log w h_w
    rw [path_generatedFiles, List.mem_map] at h_path
    obtain ⟨name, h_name, h_eq⟩ := h_path
    exact ⟨name, h_name, h_eq.symm⟩
  -- no specification is among the generated files
  have h_kept : ∀ name ∈ specNames,
      files.readToString s' (join root name) = files.readToString s (join root name) := by
    intro name h_name
    have h_used : join root name ∈ usedPaths root :=
      List.mem_map_of_mem (List.mem_append_left _ h_name)
    have h_new : name ∉ generatedNames :=
      (by decide : ∀ name ∈ specNames, name ∉ generatedNames) name h_name
    exact h_frame _ h_used (not_generated udsText obd j1939 h_new)
  refine .inr ⟨uds, obd, j1939, log, result, s', h_specs,
    (codegen_of_specs h_specs h_text).trans h_run, h_writes, h_kept, ?_⟩
  rcases h_end with ⟨h_ok, h_holds⟩ | ⟨before, w, after, e, h_split, h_error, h_before, h_after⟩
  · -- the specifications are still there, so a second run asks for the same texts
    have h_again : Specs files toml root s' uds obd j1939 := by
      refine ⟨?_, ?_, ?_⟩
      · rw [h_kept _ (by decide)]
        exact h_specs.uds
      · rw [h_kept _ (by decide)]
        exact h_specs.obd
      · rw [h_kept _ (by decide)]
        exact h_specs.j1939
    refine .inl ⟨h_ok, means_of_holds h_text h_holds, ?_⟩
    exact (codegen_of_specs h_again h_text).trans (writeAll_idle h_holds)
  · -- the texts are still those that were to be written
    exact .inr ⟨udsText, before, w, after, e, h_text, h_split, h_error, h_before, h_after⟩

end

/-- Files without errors, as a map from paths to texts. -/
def plainFiles : SourceFiles (Path → Option (List Char)) Unit where
  readToString s path :=
    match s path with
    | some text => .ok text
    | none => .error ()
  write s path text := (.ok (), fun other => if other = path then some text else s other)

theorem plainFiles_soundOn (paths : List Path) : plainFiles.SoundOn paths where
  read_write path _ s text s' h := by
    cases h
    simp [plainFiles]
  frame path _ other _ h s text := by
    simp [plainFiles, h]

def sampleUds : List Char :=
  ["[[services]]\nsid = 0x10\nname = \"Session\"\n\n",
    "[[negative_responses]]\ncode = 0x11\nname = 'Quote\"d'\n"].flatMap String.toList

def sampleObd : List Char :=
  ["[[mode1]]\npid = 0x0C\nname = \"EngineRpm\"\nunit = \"rpm\"\n\n",
    "[[mode9]]\npid = 0x02\nname = \"Vin\"\nunit = \"\"\n"].flatMap String.toList

def sampleJ1939 : List Char :=
  ["[[pgns]]\npgn = 0x00F004\nname = \"Engine\"\n"].flatMap String.toList

/-- The specifications of these texts. -/
def sampleToml : Toml Unit where
  uds text :=
    if text = sampleUds then
      .ok ⟨[⟨some 0x10, none, "Session".toList⟩], [⟨none, some 0x11, "Quote\"d".toList⟩]⟩
    else .error ()
  obd text :=
    if text = sampleObd then
      .ok ⟨[⟨0x0c, "EngineRpm".toList, "rpm".toList⟩], [⟨0x02, "Vin".toList, []⟩]⟩
    else .error ()
  j1939 text :=
    if text = sampleJ1939 then .ok ⟨[⟨0xf004, "Engine".toList⟩]⟩ else .error ()

/-- A repository with nothing but the specifications. -/
def onlySpecs : Path → Option (List Char) := fun path =>
  if path = "/repo/spec-data/uds/services.toml".toList then some sampleUds
  else if path = "/repo/spec-data/obd/pids.toml".toList then some sampleObd
  else if path = "/repo/spec-data/j1939/pgns.toml".toList then some sampleJ1939
  else none

theorem onlySpecs_isOk :
    (codegen plainFiles sampleToml (fun _ => true) "/repo".toList onlySpecs).2.1.isOk := by
  decide +kernel

/-- All files are generated there. -/
theorem codegen_regenerates_onlySpecs : ∃ uds obd j1939 log s',
    codegen plainFiles sampleToml (fun _ => true) "/repo".toList onlySpecs = (log, .ok (), s') ∧
    Means plainFiles "/repo".toList s' uds obd j1939 ∧
    codegen plainFiles sampleToml (fun _ => true) "/repo".toList s' = ([], .ok (), s') := by
  have h_ok := onlySpecs_isOk
  obtain ⟨fault, h⟩ | ⟨uds, obd, j1939, log, result, s', -, h_run, -, -, h_end⟩ :=
    codegen_regenerates "/repo".toList (plainFiles_soundOn _) sampleToml (fun _ => true) onlySpecs
  · rw [h] at h_ok
    cases h_ok
  · rcases h_end with ⟨rfl, h_means, h_again⟩ | ⟨_, _, _, _, _, -, -, rfl, -, -⟩
    · exact ⟨uds, obd, j1939, log, s', h_run, h_means, h_again⟩
    · rw [h_run] at h_ok
      cases h_ok

end Cantools.Xtask
