import Cantools.Codec.Path
import Cantools.Decoder.Contract
import Cantools.Framework.Transducer

/-!
# Loading databases

A `Decoder` has the databases that were loaded into it, in order, under their labels. The parser
of the `can_dbc` crate is a parameter. A database that cannot be read or parsed leaves the decoder
as it was; the others are added behind those that are there (`final_push`).

So the outcome of a frame moves in one direction while databases are loaded: nothing matches, one
database matches, several do. Behind an ambiguous outcome the labels stay, and new ones are added
(`grows_append`).
-/

namespace Cantools

/-- Deterministic multi-DBC decoder. -/
structure Decoder where
  databases : List Decoder.LoadedDbc

namespace Decoder

open Codec Program Utf8

/-! ### The code -/

/-- Decode errors returned while loading DBC data. -/
inductive LoadError (ε δ : Type) where
  /-- I/O failed. -/
  | io (error : ε)
  /-- DBC parsing failed. -/
  | parse (error : δ)
  deriving DecidableEq, Repr

/-- Construct an empty decoder. -/
def new : Decoder where
  databases := []

section Code

variable {σ ε δ : Type}

/-- What loading takes from elsewhere. -/
structure Loader (σ ε δ : Type) where
  files : Files σ ε
  /-- The error of a file that is no text. -/
  invalidData : ε
  /-- `Dbc::try_from` -/
  parse : List Char → Except δ Dbc

variable (loader : Loader σ ε δ)

/-- Load a DBC from a string and store it under a caller-provided label. -/
def pushNamed (decoder : Decoder) (name dbcText : List Char) :
    Except (LoadError ε δ) Unit × Decoder :=
  match loader.parse dbcText with
  | .error e => (.error (.parse e), decoder)
  | .ok dbc =>
    (.ok (), { databases := decoder.databases ++ [{ name := String.ofList name, dbc }] })

/-- `fs::read_to_string` -/
def Loader.readToString (s : σ) (path : Path) : Except ε (List Char) :=
  match loader.files.read s path with
  | .error e => .error e
  | .ok bytes =>
    match decode bytes with
    | none => .error loader.invalidData
    | some text => .ok text

/-- The label of a database file. -/
def fileLabel (path : Path) : List Char := ((fileName path).bind decode).getD "dbc".toList

/-- Load a DBC file and use the filename as the database label. -/
def pushFile (s : σ) (decoder : Decoder) (path : Path) :
    Except (LoadError ε δ) Unit × Decoder :=
  match loader.readToString s path with
  | .error e => (.error (.io e), decoder)
  | .ok content => decoder.pushNamed loader (fileLabel path) content

/-- The loop of `load_decoder`. -/
def loadAll (s : σ) : Decoder → List Path → Except (LoadError ε δ) Decoder
  | decoder, [] => .ok decoder
  | decoder, path :: paths =>
    match decoder.pushFile loader s path with
    | (.error e, _) => .error e
    | (.ok (), decoder) => loadAll s decoder paths

/-- `load_decoder`: no decoder where no path is given. -/
def loadDecoder (s : σ) (paths : List Path) : Except (LoadError ε δ) (Option Decoder) :=
  if paths.isEmpty then .ok none
  else (loadAll loader s .new paths).map some

/-! ### Sessions -/

/-- What is loaded, from a file that may have changed since the last one. -/
inductive Push (σ : Type) where
  | named (name dbcText : List Char)
  | file (s : σ) (path : Path)

def push (decoder : Decoder) : Push σ → Except (LoadError ε δ) Unit × Decoder
  | .named name dbcText => decoder.pushNamed loader name dbcText
  | .file s path => decoder.pushFile loader s path

/-- The database of a text, if it is one. -/
def Loader.loaded (name dbcText : List Char) : Option LoadedDbc :=
  (loader.parse dbcText).toOption.map fun dbc => { name := String.ofList name, dbc }

/-- The database that is loaded, if one is. -/
def Push.loads : Push σ → Option LoadedDbc
  | .named name dbcText => loader.loaded name dbcText
  | .file s path =>
    (loader.readToString s path).toOption.bind (loader.loaded (fileLabel path))

variable {loader}

theorem pushNamed_eq (decoder : Decoder) (name dbcText : List Char) :
    (decoder.pushNamed loader name dbcText).2
        = { databases := decoder.databases ++ (loader.loaded name dbcText).toList } ∧
      ((decoder.pushNamed loader name dbcText).1 = .ok () ↔
        (loader.loaded name dbcText).isSome) := by
  rw [pushNamed, Loader.loaded]
  cases loader.parse dbcText with
  | error e => exact ⟨congrArg Decoder.mk (List.append_nil _).symm, by simp [Except.toOption]⟩
  | ok dbc => exact ⟨rfl, by simp [Except.toOption]⟩

/-- **One push** adds what is loaded, and fails where nothing is. -/
theorem push_eq (decoder : Decoder) (op : Push σ) :
    (push loader decoder op).2 = { databases := decoder.databases ++ (op.loads loader).toList } ∧
      ((push loader decoder op).1 = .ok () ↔ (op.loads loader).isSome) := by
  cases op with
  | named name dbcText => exact pushNamed_eq decoder name dbcText
  | file s path =>
    rw [push, pushFile, Push.loads]
    cases loader.readToString s path with
    | error e => exact ⟨congrArg Decoder.mk (List.append_nil _).symm, by simp [Except.toOption]⟩
    | ok content => exact pushNamed_eq decoder (fileLabel path) content

/-- **A session** loads what its pushes load, in order. -/
theorem final_push (decoder : Decoder) (ops : List (Push σ)) :
    (Transducer.final (push loader) decoder ops).databases
      = decoder.databases ++ ops.filterMap (Push.loads loader) := by
  induction ops generalizing decoder with
  | nil => exact (List.append_nil _).symm
  | cons op ops ih =>
    rw [Transducer.final_cons, ih, (push_eq decoder op).1]
    cases h_op : op.loads loader with
    | none => rw [List.filterMap_cons_none h_op, Option.toList_none, List.append_nil]
    | some database =>
      rw [List.filterMap_cons_some h_op, Option.toList_some, List.append_assoc,
        List.singleton_append]

/-- The loop is a session that ends at its first error. -/
theorem loadAll_eq_ok_iff {s : σ} {decoder last : Decoder} {paths : List Path} :
    loadAll loader s decoder paths = .ok last ↔
      (∀ path ∈ paths, ((Push.file s path).loads loader).isSome) ∧
        last = Transducer.final (push loader) decoder (paths.map (Push.file s)) := by
  induction paths generalizing decoder with
  | nil =>
    constructor
    · intro h
      exact ⟨fun _ h_mem => (nomatch h_mem), (Except.ok.inj h).symm⟩
    · rintro ⟨-, rfl⟩
      rfl
  | cons path paths ih =>
    obtain ⟨-, h_ok⟩ := @push_eq _ _ _ loader decoder (.file s path)
    rw [List.map_cons, Transducer.final_cons, List.forall_mem_cons, ← h_ok, loadAll]
    -- the first path decides whether the others are looked at
    show (match decoder.pushFile loader s path with
      | (.error e, _) => Except.error e
      | (.ok (), decoder) => loadAll loader s decoder paths) = _ ↔
        ((decoder.pushFile loader s path).1 = .ok () ∧ _) ∧
          last = Transducer.final _ (decoder.pushFile loader s path).2 _
    rcases decoder.pushFile loader s path with ⟨e | _, next⟩
    · exact ⟨fun h => (nomatch h), fun h => (nomatch h.1.1)⟩
    · simp only [ih, true_and]

/-! ### What loading does to a frame -/

/-- How the outcome of a frame changes with the databases that come later. -/
inductive Grows (checks : Bool) (frame : CanFrame) (before later : List LoadedDbc) :
    Run Empty DecodeOutcome → Prop where
  /-- None of them matches, and nothing changes. -/
  | same (h : matching later frame = []) :
    Grows checks frame before later (decodeFrame checks before frame)
  /-- They have the first ones that match, and the outcome is theirs. -/
  | first (h_before : matching before frame = []) (h_later : matching later frame ≠ []) :
    Grows checks frame before later (decodeFrame checks later frame)
  /-- More than one: the labels of all that match, those of before in front. -/
  | ambiguous (h_before : matching before frame ≠ []) (h_later : matching later frame ≠ []) :
    Grows checks frame before later (.ok
      { message := none
        diagnostics := [.ambiguousMessage frame.id.raw
          ((matching before frame ++ matching later frame).map LoadedDbc.name)] })

theorem grows_append (checks : Bool) (frame : CanFrame) (before later : List LoadedDbc) :
    Grows checks frame before later (decodeFrame checks (before ++ later) frame) := by
  have h_append : matching (before ++ later) frame
      = matching before frame ++ matching later frame :=
    List.filter_append ..
  -- only the databases that match are looked at
  by_cases h_later : matching later frame = []
  · rw [h_later, List.append_nil] at h_append
    rw [decodeFrame_congr h_append]
    exact .same h_later
  · by_cases h_before : matching before frame = []
    · rw [h_before, List.nil_append] at h_append
      rw [decodeFrame_congr h_append]
      exact .first h_before h_later
    · -- one of each is more than one
      have h_two : 2 ≤ (matching (before ++ later) frame).length := by
        have h_one := List.length_pos_iff.mpr h_before
        have h_other := List.length_pos_iff.mpr h_later
        rw [h_append, List.length_append]
        omega
      rw [decodeFrame_of_several h_two, h_append]
      exact .ambiguous h_before h_later

/-- **Loading moves outcomes one way**, in any session of pushes, of which any may fail. A push
fails exactly where it loads nothing, and the decoder then stays as it is; what is loaded is added
behind what is there. The outcome of a frame stays the same while nothing that matches is loaded.
A frame that nothing matched gets the outcome that the databases loaded later give it on their own;
one that something matched becomes ambiguous as soon as something else does, with the labels of all
that match, in the order in which they were loaded. -/
theorem session_outcomes (loader : Loader σ ε δ) (decoder : Decoder) (earlier later : List (Push σ))
    (checks : Bool) (frame : CanFrame) :
    let before := Transducer.final (push loader) decoder earlier
    let after := Transducer.final (push loader) decoder (earlier ++ later)
    (∀ op, ((push loader before op).1 = .ok () ↔ (op.loads loader).isSome) ∧
      ((push loader before op).1 ≠ .ok () → (push loader before op).2 = before)) ∧
    after.databases = before.databases ++ later.filterMap (Push.loads loader) ∧
    Grows checks frame before.databases (later.filterMap (Push.loads loader))
      (decodeFrame checks after.databases frame) := by
  intro before after
  have h_after : after.databases = before.databases ++ later.filterMap (Push.loads loader) := by
    rw [final_push, final_push, List.filterMap_append, List.append_assoc]
  refine ⟨fun op => ?_, h_after, ?_⟩
  · obtain ⟨h_next, h_ok⟩ := @push_eq _ _ _ loader before op
    refine ⟨h_ok, fun h_fails => ?_⟩
    rw [h_next, Option.not_isSome_iff_eq_none.mp (mt h_ok.mpr h_fails), Option.toList_none,
      List.append_nil]
  · rw [h_after]
    exact grows_append checks frame before.databases _

end Code

end Decoder

end Cantools
