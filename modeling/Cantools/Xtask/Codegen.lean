import Cantools.Framework.Program
import Cantools.Framework.RustTable

/-!
# Generated tables

`xtask codegen` turns the specifications under `spec-data` into Rust source files with one table
of constants each (two for UDS). The texts are put together as the source does it
(`udsGenerated`, `obdGenerated`, `j1939Generated`); what they mean is what Rust makes of them
(`Rust.constant`). The theorems say that the meaning of a generated text is the specification:
every entry, in order, with its numbers and its names, whatever characters are in the names.

The specifications are what `toml::from_str` made of the files. Which characters `{:?}` takes for
printable is a parameter.
-/

namespace Cantools.Xtask

open Numeral Program Rust Scanner

/-! ### Specifications -/

structure NamedByte where
  sid : Option UInt8
  code : Option UInt8
  name : List Char

structure NamedUnitByte where
  pid : UInt8
  name : List Char
  unit : List Char

structure NamedPgn where
  pgn : UInt32
  name : List Char

structure UdsSpec where
  services : List NamedByte
  negativeResponses : List NamedByte

structure ObdSpec where
  mode1 : List NamedUnitByte
  mode9 : List NamedUnitByte

structure J1939Spec where
  pgns : List NamedPgn

/-! ### Texts -/

section

variable (isPrintable : Char → Bool)

/-- `0x{:02X}` -/
def hexByte (n : UInt8) : List Char := "0x".toList ++ print 16 2 n.toNat

/-- The entries of a table, one a line. -/
def joinLines (lines : List (List Char)) : List Char := ['\n'].intercalate lines

def serviceLine (sid : UInt8) (name : List Char) : List Char :=
  "    GeneratedService \x7b sid: ".toList ++ hexByte sid ++ ", name: ".toList ++
    debugStr isPrintable name ++ " \x7d,".toList

def negativeResponseLine (code : UInt8) (name : List Char) : List Char :=
  "    GeneratedNegativeResponse \x7b code: ".toList ++ hexByte code ++ ", name: ".toList ++
    debugStr isPrintable name ++ " \x7d,".toList

def pidLine (mode : String) (entry : NamedUnitByte) : List Char :=
  "    GeneratedPid \x7b mode: ".toList ++ mode.toList ++ ", pid: ".toList ++ hexByte entry.pid ++
    ", name: ".toList ++ debugStr isPrintable entry.name ++ ", unit: ".toList ++
    debugStr isPrintable entry.unit ++ " \x7d,".toList

def pgnLine (entry : NamedPgn) : List Char :=
  "    GeneratedPgn \x7b pgn: 0x".toList ++ print 16 6 entry.pgn.toNat ++ ", name: ".toList ++
    debugStr isPrintable entry.name ++ " \x7d,".toList

def udsBefore : List Char :=
  ["//! Generated UDS tables. Regenerate with `cargo run -p xtask -- codegen`.\n\n",
    "/// Generated UDS service metadata.\n",
    "#[derive(Debug, Clone, Copy, PartialEq, Eq)]\n",
    "pub struct GeneratedService \x7b\n",
    "/// ISO 14229 service identifier.\n",
    "pub sid: u8,\n",
    "/// Human-readable service name.\n",
    "pub name: &'static str,\n",
    "\x7d\n\n",
    "/// Generated UDS negative response metadata.\n",
    "#[derive(Debug, Clone, Copy, PartialEq, Eq)]\n",
    "pub struct GeneratedNegativeResponse \x7b\n",
    "/// ISO 14229 negative response code.\n",
    "pub code: u8,\n",
    "/// Human-readable negative response name.\n",
    "pub name: &'static str,\n",
    "\x7d\n\n",
    "/// Generated UDS services keyed by service identifier.\n",
    "pub const GENERATED_SERVICES: &[GeneratedService] = &[\n"].flatMap String.toList

def udsBetween : List Char :=
  ["\n];\n\n",
    "/// Generated UDS negative responses keyed by response code.\n",
    "pub const GENERATED_NEGATIVE_RESPONSES: &[GeneratedNegativeResponse] = &[\n"].flatMap
    String.toList

def tableEnd : List Char := "\n];\n".toList

/-- The UDS tables. An entry without its number panics. -/
def udsGenerated {ε : Type} (uds : UdsSpec) : Run ε (List Char) := do
  -- the services are formatted before any negative response is looked at
  let services ← uds.services.mapM fun entry => do
    let sid ← orPanic entry.sid
    return serviceLine isPrintable sid entry.name
  let negativeResponses ← uds.negativeResponses.mapM fun entry => do
    let code ← orPanic entry.code
    return negativeResponseLine isPrintable code entry.name
  return udsBefore ++ joinLines services ++ udsBetween ++
    joinLines negativeResponses ++ tableEnd

def obdBefore : List Char :=
  ["//! Generated OBD tables. Regenerate with `cargo run -p xtask -- codegen`.\n\n",
    "/// Generated OBD PID metadata.\n",
    "#[derive(Debug, Clone, Copy, PartialEq, Eq)]\n",
    "pub struct GeneratedPid \x7b\n",
    "/// OBD service mode.\n",
    "pub mode: u8,\n",
    "/// OBD parameter identifier.\n",
    "pub pid: u8,\n",
    "/// Human-readable PID name.\n",
    "pub name: &'static str,\n",
    "/// Engineering unit for decoded values.\n",
    "pub unit: &'static str,\n",
    "\x7d\n\n",
    "/// Generated OBD PIDs keyed by service mode and PID.\n",
    "pub const GENERATED_PIDS: &[GeneratedPid] = &[\n"].flatMap String.toList

def obdGenerated (obd : ObdSpec) : List Char :=
  obdBefore ++ joinLines (obd.mode1.map (pidLine isPrintable "0x01") ++
    obd.mode9.map (pidLine isPrintable "0x09")) ++ tableEnd

def j1939Before : List Char :=
  ["//! Generated J1939 tables. Regenerate with `cargo run -p xtask -- codegen`.\n\n",
    "/// Generated J1939 PGN metadata.\n",
    "#[derive(Debug, Clone, Copy, PartialEq, Eq)]\n",
    "pub struct GeneratedPgn \x7b\n",
    "/// Parameter Group Number.\n",
    "pub pgn: u32,\n",
    "/// Human-readable PGN name.\n",
    "pub name: &'static str,\n",
    "\x7d\n\n",
    "/// Generated J1939 PGN definitions keyed by PGN.\n",
    "pub const GENERATED_PGNS: &[GeneratedPgn] = &[\n"].flatMap String.toList

def j1939Generated (j1939 : J1939Spec) : List Char :=
  j1939Before ++ joinLines (j1939.pgns.map (pgnLine isPrintable)) ++ tableEnd

end

/-! ### Items -/

def u8 : Ty := .named "u8".toList

def u32 : Ty := .named "u32".toList

def staticStr : Ty := .ref "static".toList "str".toList

/-- A structure of metadata. -/
def metadata (name : String) (fields : List (Name × Ty)) : StructDecl :=
  { attr := "derive".toList
    derives := ["Debug".toList, "Clone".toList, "Copy".toList, "PartialEq".toList, "Eq".toList]
    name := name.toList
    fields }

def generatedService : StructDecl :=
  metadata "GeneratedService" [("sid".toList, u8), ("name".toList, staticStr)]

def generatedNegativeResponse : StructDecl :=
  metadata "GeneratedNegativeResponse" [("code".toList, u8), ("name".toList, staticStr)]

def generatedPid : StructDecl :=
  metadata "GeneratedPid" [("mode".toList, u8), ("pid".toList, u8), ("name".toList, staticStr),
    ("unit".toList, staticStr)]

def generatedPgn : StructDecl :=
  metadata "GeneratedPgn" [("pgn".toList, u32), ("name".toList, staticStr)]

def serviceRecord (entry : UInt8 × List Char) : Record :=
  { name := "GeneratedService".toList
    fields := [("sid".toList, .int entry.1.toNat), ("name".toList, .str entry.2)] }

def negativeResponseRecord (entry : UInt8 × List Char) : Record :=
  { name := "GeneratedNegativeResponse".toList
    fields := [("code".toList, .int entry.1.toNat), ("name".toList, .str entry.2)] }

def pidRecord (entry : UInt8 × NamedUnitByte) : Record :=
  { name := "GeneratedPid".toList
    fields := [("mode".toList, .int entry.1.toNat), ("pid".toList, .int entry.2.pid.toNat),
      ("name".toList, .str entry.2.name), ("unit".toList, .str entry.2.unit)] }

def pgnRecord (entry : NamedPgn) : Record :=
  { name := "GeneratedPgn".toList
    fields := [("pgn".toList, .int entry.pgn.toNat), ("name".toList, .str entry.name)] }

/-! ### Scanning the texts -/

section

variable (isPrintable : Char → Bool)

theorem shows_hexByte (n : UInt8) : Shows (hexByte n) (.int n.toNat) :=
  shows_hex (lt_trans n.toNat_lt (by decide))

theorem printed_close : Printed [] " \x7d,".toList :=
  .last (by decide +kernel) (by decide +kernel)

/-- The modes as they stand in the lines. -/
theorem shows_mode1 : Shows "0x01".toList (.int (1 : UInt8).toNat) := by
  have h : "0x01".toList = hexByte 1 := by decide +kernel
  rw [h]
  exact shows_hexByte 1

theorem shows_mode9 : Shows "0x09".toList (.int (9 : UInt8).toNat) := by
  have h : "0x09".toList = hexByte 9 := by decide +kernel
  rw [h]
  exact shows_hexByte 9

/-- A label between two fields. -/
theorem printed_name {fields : List (Name × Literal)} {rest : List Char} (name : List Char)
    (h_rest : Printed fields rest) : Printed (("name".toList, .str name) :: fields)
      (", name: ".toList ++ (debugStr isPrintable name ++ rest)) :=
  .more (by decide +kernel) (by decide +kernel) (shows_debugStr isPrintable name) h_rest

theorem printed_unit {fields : List (Name × Literal)} {rest : List Char} (unit : List Char)
    (h_rest : Printed fields rest) : Printed (("unit".toList, .str unit) :: fields)
      (", unit: ".toList ++ (debugStr isPrintable unit ++ rest)) :=
  .more (by decide +kernel) (by decide +kernel) (shows_debugStr isPrintable unit) h_rest

theorem printed_pid {fields : List (Name × Literal)} {rest : List Char} (pid : UInt8)
    (h_rest : Printed fields rest) : Printed (("pid".toList, .int pid.toNat) :: fields)
      (", pid: ".toList ++ (hexByte pid ++ rest)) :=
  .more (by decide +kernel) (by decide +kernel) (shows_hexByte pid) h_rest

theorem scans_serviceLine (entry : UInt8 × List Char) :
    Scans step .blank (serviceLine isPrintable entry.1 entry.2)
      ((serviceRecord entry).tokens ++ [.mark ',']) .blank := by
  have h_opening : Scans step .blank "    GeneratedService \x7b sid: ".toList
      [.word "GeneratedService".toList, .mark '{', .word "sid".toList, .mark ':'] .blank := by
    decide +kernel
  have h_record := scans_record h_opening (shows_hexByte entry.1)
    (printed_name isPrintable entry.2 printed_close)
  unfold serviceLine
  rw [List.append_assoc, List.append_assoc, List.append_assoc]
  exact h_record

theorem scans_negativeResponseLine (entry : UInt8 × List Char) :
    Scans step .blank (negativeResponseLine isPrintable entry.1 entry.2)
      ((negativeResponseRecord entry).tokens ++ [.mark ',']) .blank := by
  have h_opening : Scans step .blank "    GeneratedNegativeResponse \x7b code: ".toList
      [.word "GeneratedNegativeResponse".toList, .mark '{', .word "code".toList, .mark ':']
      .blank := by
    decide +kernel
  have h_record := scans_record h_opening (shows_hexByte entry.1)
    (printed_name isPrintable entry.2 printed_close)
  unfold negativeResponseLine
  rw [List.append_assoc, List.append_assoc, List.append_assoc]
  exact h_record

theorem scans_pidLine {mode : String} {n : UInt8}
    (h_mode : Shows mode.toList (.int n.toNat))
    (entry : NamedUnitByte) : Scans step .blank (pidLine isPrintable mode entry)
      ((pidRecord (n, entry)).tokens ++ [.mark ',']) .blank := by
  have h_opening : Scans step .blank "    GeneratedPid \x7b mode: ".toList
      [.word "GeneratedPid".toList, .mark '{', .word "mode".toList, .mark ':'] .blank := by
    decide +kernel
  have h_record := scans_record h_opening h_mode (printed_pid entry.pid
    (printed_name isPrintable entry.name (printed_unit isPrintable entry.unit printed_close)))
  unfold pidLine
  simp only [List.append_assoc]
  exact h_record

theorem scans_pgnLine (entry : NamedPgn) :
    Scans step .blank (pgnLine isPrintable entry) ((pgnRecord entry).tokens ++ [.mark ','])
      .blank := by
  have h_opening : Scans step .blank "    GeneratedPgn \x7b pgn: ".toList
      [.word "GeneratedPgn".toList, .mark '{', .word "pgn".toList, .mark ':'] .blank := by
    decide +kernel
  have h_pgn : Shows (['0', 'x'] ++ print 16 6 entry.pgn.toNat) (.int entry.pgn.toNat) :=
    shows_hex (lt_trans entry.pgn.toNat_lt (by decide))
  have h_record := scans_record h_opening h_pgn (printed_name isPrintable entry.name printed_close)
  -- the marker of the number stands in the text before it
  have h_split : "    GeneratedPgn \x7b pgn: 0x".toList
      = "    GeneratedPgn \x7b pgn: ".toList ++ ['0', 'x'] := by decide +kernel
  unfold pgnLine
  rw [h_split]
  simp only [List.append_assoc] at h_record ⊢
  exact h_record

/-- The lines of a table are its records. -/
theorem scans_joinLines {α : Type} {line : α → List Char} {record : α → Record}
    {entries : List α}
    (h : ∀ e ∈ entries, Scans step .blank (line e) ((record e).tokens ++ [.mark ',']) .blank) :
    Scans step .blank (joinLines (entries.map line))
      ((entries.map record).flatMap fun r => r.tokens ++ [.mark ',']) .blank := by
  have h_separator : Scans step .blank ['\n'] [] .blank := by decide
  have h_lines := Scans.intercalate h_separator h
  rw [List.flatMap_map]
  exact h_lines

theorem scans_tableEnd : Scans step .blank tableEnd [.mark ']', .mark ';'] .blank := by
  decide +kernel

end

/-! ### Meaning -/

def servicesTable (services : List (UInt8 × List Char)) : Table :=
  { name := "GENERATED_SERVICES".toList
    element := "GeneratedService".toList
    records := services.map serviceRecord }

def negativeResponsesTable (negativeResponses : List (UInt8 × List Char)) : Table :=
  { name := "GENERATED_NEGATIVE_RESPONSES".toList
    element := "GeneratedNegativeResponse".toList
    records := negativeResponses.map negativeResponseRecord }

def pidsTable (pids : List (UInt8 × NamedUnitByte)) : Table :=
  { name := "GENERATED_PIDS".toList
    element := "GeneratedPid".toList
    records := pids.map pidRecord }

def pgnsTable (pgns : List NamedPgn) : Table :=
  { name := "GENERATED_PGNS".toList
    element := "GeneratedPgn".toList
    records := pgns.map pgnRecord }

/-- The items of the UDS file. -/
def udsItems (services negativeResponses : List (UInt8 × List Char)) : List Item :=
  [.struct generatedService, .struct generatedNegativeResponse, .table (servicesTable services),
    .table (negativeResponsesTable negativeResponses)]

/-- The entries of both modes, each with its mode. -/
def ObdSpec.pids (obd : ObdSpec) : List (UInt8 × NamedUnitByte) :=
  obd.mode1.map (1, ·) ++ obd.mode9.map (9, ·)

def obdItems (pids : List (UInt8 × NamedUnitByte)) : List Item :=
  [.struct generatedPid, .table (pidsTable pids)]

def j1939Items (pgns : List NamedPgn) : List Item :=
  [.struct generatedPgn, .table (pgnsTable pgns)]

/-! ### Whole texts -/

section

variable (isPrintable : Char → Bool)

theorem scans_udsBefore : Scans step .blank udsBefore (generatedService.tokens ++
    (generatedNegativeResponse.tokens ++
      tableOpening "GENERATED_SERVICES".toList "GeneratedService".toList)) .blank := by
  decide +kernel

theorem scans_udsBetween : Scans step .blank udsBetween ([.mark ']', .mark ';'] ++
    tableOpening "GENERATED_NEGATIVE_RESPONSES".toList "GeneratedNegativeResponse".toList)
    .blank := by
  decide +kernel

theorem scans_obdBefore : Scans step .blank obdBefore (generatedPid.tokens ++
    tableOpening "GENERATED_PIDS".toList "GeneratedPid".toList) .blank := by
  decide +kernel

theorem scans_j1939Before : Scans step .blank j1939Before (generatedPgn.tokens ++
    tableOpening "GENERATED_PGNS".toList "GeneratedPgn".toList) .blank := by
  decide +kernel

theorem tokens_two_tables (a b : StructDecl) (t u : Table) :
    [Item.struct a, .struct b, .table t, .table u].flatMap Item.tokens
      = a.tokens ++ (b.tokens ++ tableOpening t.name t.element) ++
        t.records.flatMap (fun r => r.tokens ++ [.mark ',']) ++
        ([.mark ']', .mark ';'] ++ tableOpening u.name u.element) ++
        u.records.flatMap (fun r => r.tokens ++ [.mark ',']) ++ [.mark ']', .mark ';'] := by
  simp [Item.tokens, Table.tokens]

theorem tokens_one_table (a : StructDecl) (t : Table) :
    [Item.struct a, .table t].flatMap Item.tokens
      = a.tokens ++ tableOpening t.name t.element ++
        t.records.flatMap (fun r => r.tokens ++ [.mark ',']) ++ [.mark ']', .mark ';'] := by
  simp [Item.tokens, Table.tokens]

theorem scans_uds (services negativeResponses : List (UInt8 × List Char)) :
    Scans step .blank (udsBefore ++ joinLines (services.map fun e =>
        serviceLine isPrintable e.1 e.2) ++ udsBetween ++ joinLines (negativeResponses.map
        fun e => negativeResponseLine isPrintable e.1 e.2) ++ tableEnd)
      ((udsItems services negativeResponses).flatMap Item.tokens) .blank := by
  have h_services := @scans_joinLines _ _ serviceRecord services fun e _ =>
    scans_serviceLine isPrintable e
  have h_responses := @scans_joinLines _ _ negativeResponseRecord negativeResponses fun e _ =>
    scans_negativeResponseLine isPrintable e
  have h_text := (((scans_udsBefore.append h_services).append scans_udsBetween).append
    h_responses).append scans_tableEnd
  unfold udsItems
  rw [tokens_two_tables]
  exact h_text

theorem scans_obd (obd : ObdSpec) : Scans step .blank (obdGenerated isPrintable obd)
    ((obdItems obd.pids).flatMap Item.tokens) .blank := by
  -- the lines of the two modes are those of one list of entries with their modes
  let line : UInt8 × NamedUnitByte → List Char := fun entry =>
    pidLine isPrintable (if entry.1 = 1 then "0x01" else "0x09") entry.2
  have h_lines : obd.mode1.map (pidLine isPrintable "0x01") ++
      obd.mode9.map (pidLine isPrintable "0x09") = obd.pids.map line := by
    rw [ObdSpec.pids, List.map_append, List.map_map, List.map_map]
    rfl
  have h_line : ∀ entry ∈ obd.pids,
      Scans step .blank (line entry) ((pidRecord entry).tokens ++ [.mark ',']) .blank := by
    intro entry h_entry
    rcases List.mem_append.mp h_entry with h_entry | h_entry
    · obtain ⟨entry, -, rfl⟩ := List.mem_map.mp h_entry
      exact scans_pidLine isPrintable shows_mode1 entry
    · obtain ⟨entry, -, rfl⟩ := List.mem_map.mp h_entry
      exact scans_pidLine isPrintable shows_mode9 entry
  have h_text := (scans_obdBefore.append (scans_joinLines h_line)).append scans_tableEnd
  unfold obdGenerated obdItems
  rw [h_lines, tokens_one_table]
  exact h_text

theorem scans_j1939 (j1939 : J1939Spec) : Scans step .blank (j1939Generated isPrintable j1939)
    ((j1939Items j1939.pgns).flatMap Item.tokens) .blank := by
  have h_pgns := @scans_joinLines _ _ pgnRecord j1939.pgns fun e _ => scans_pgnLine isPrintable e
  have h_text := (scans_j1939Before.append h_pgns).append scans_tableEnd
  unfold j1939Generated j1939Items
  rw [tokens_one_table]
  exact h_text

end

/-! ### Values -/

/-- The values of an entry. -/
def byteRow (entry : UInt8 × List Char) : List Literal := [.int entry.1.toNat, .str entry.2]

def pidRow (entry : UInt8 × NamedUnitByte) : List Literal :=
  [.int entry.1.toNat, .int entry.2.pid.toNat, .str entry.2.name, .str entry.2.unit]

def pgnRow (entry : NamedPgn) : List Literal := [.int entry.pgn.toNat, .str entry.name]

theorem hasTy_u8 (n : UInt8) : Literal.hasTy (.int n.toNat) u8 := by
  simp only [Literal.hasTy, u8, Bool.or_eq_true, Bool.and_eq_true, decide_eq_true_eq]
  exact .inl ⟨trivial, n.toNat_lt⟩

theorem hasTy_u32 (n : UInt32) : Literal.hasTy (.int n.toNat) u32 := by
  simp only [Literal.hasTy, u32, Bool.or_eq_true, Bool.and_eq_true, decide_eq_true_eq]
  exact .inr ⟨trivial, n.toNat_lt⟩

theorem hasTy_staticStr (s : List Char) : Literal.hasTy (.str s) staticStr := by
  simp [Literal.hasTy, staticStr]

theorem values_service (entry : UInt8 × List Char) :
    (serviceRecord entry).values generatedService = some (byteRow entry) :=
  Record.values_eq rfl (by decide +kernel) (.cons ⟨rfl, hasTy_u8 entry.1⟩
    (.cons ⟨rfl, hasTy_staticStr entry.2⟩ .nil))

theorem values_negativeResponse (entry : UInt8 × List Char) :
    (negativeResponseRecord entry).values generatedNegativeResponse = some (byteRow entry) :=
  Record.values_eq rfl (by decide +kernel) (.cons ⟨rfl, hasTy_u8 entry.1⟩
    (.cons ⟨rfl, hasTy_staticStr entry.2⟩ .nil))

theorem values_pid (entry : UInt8 × NamedUnitByte) :
    (pidRecord entry).values generatedPid = some (pidRow entry) :=
  Record.values_eq rfl (by decide +kernel) (.cons ⟨rfl, hasTy_u8 entry.1⟩
    (.cons ⟨rfl, hasTy_u8 entry.2.pid⟩ (.cons ⟨rfl, hasTy_staticStr entry.2.name⟩
      (.cons ⟨rfl, hasTy_staticStr entry.2.unit⟩ .nil))))

theorem values_pgn (entry : NamedPgn) :
    (pgnRecord entry).values generatedPgn = some (pgnRow entry) :=
  Record.values_eq rfl (by decide +kernel) (.cons ⟨rfl, hasTy_u32 entry.pgn⟩
    (.cons ⟨rfl, hasTy_staticStr entry.name⟩ .nil))

theorem distinct_uds (services negativeResponses : List (UInt8 × List Char)) :
    Distinct (udsItems services negativeResponses) := by
  have h_names : ["GeneratedService".toList, "GeneratedNegativeResponse".toList,
      "GENERATED_SERVICES".toList, "GENERATED_NEGATIVE_RESPONSES".toList].Nodup := by
    decide +kernel
  refine ⟨h_names, fun item h_item => ?_⟩
  simp only [udsItems, List.mem_cons, List.not_mem_nil, or_false] at h_item
  -- two structures and two tables
  rcases h_item with rfl | rfl | rfl | rfl
  · show (generatedService.fields.map Prod.fst).Nodup
    decide +kernel
  · show (generatedNegativeResponse.fields.map Prod.fst).Nodup
    decide +kernel
  · trivial
  · trivial

/-! ### What a generated text means -/

/-- The entries with their numbers, if none is missing. -/
def numbered (number : NamedByte → Option UInt8) (entries : List NamedByte) :
    Option (List (UInt8 × List Char)) :=
  entries.mapM fun entry => (number entry).map fun n => (n, entry.name)

theorem numbered_cons (number : NamedByte → Option UInt8) (entry : NamedByte)
    (entries : List NamedByte) : numbered number (entry :: entries)
      = (number entry).bind fun n =>
        (numbered number entries).map fun pairs => (n, entry.name) :: pairs := by
  rw [numbered, List.mapM_cons]
  cases number entry with
  | none => rfl
  | some n =>
    show Option.bind (numbered number entries) _ = _
    cases numbered number entries <;> rfl

/-- The lines of entries, or the panic at the first one without its number. -/
theorem mapM_lines {ε : Type} (number : NamedByte → Option UInt8)
    (line : UInt8 → List Char → List Char) (entries : List NamedByte) :
    (entries.mapM fun entry => do
      let n ← orPanic (number entry)
      return line n entry.name : Run ε (List (List Char)))
      = orPanic ((numbered number entries).map fun pairs => pairs.map fun e => line e.1 e.2) := by
  induction entries with
  | nil => rfl
  | cons entry entries ih =>
    rw [List.mapM_cons, ih, numbered_cons]
    cases number entry with
    | none => rfl
    | some n => cases numbered number entries <;> rfl

section

variable (isPrintable : Char → Bool)

theorem constant_uds {services negativeResponses : List (UInt8 × List Char)} {text : List Char}
    (h : text = udsBefore ++ joinLines (services.map fun e => serviceLine isPrintable e.1 e.2) ++
      udsBetween ++ joinLines (negativeResponses.map fun e =>
        negativeResponseLine isPrintable e.1 e.2) ++ tableEnd) :
    constant text "GENERATED_SERVICES".toList = some (services.map byteRow) ∧
      constant text "GENERATED_NEGATIVE_RESPONSES".toList
        = some (negativeResponses.map byteRow) := by
  -- the text is that of the items, which have different names
  have h_scans := scans_uds isPrintable services negativeResponses
  have h_distinct := distinct_uds services negativeResponses
  rw [← h] at h_scans
  rw [constant_eq h_scans, constant_eq h_scans]
  constructor
  · have h_table : Item.table (servicesTable services) ∈ udsItems services negativeResponses := by
      simp [udsItems]
    have h_decl : Item.struct generatedService ∈ udsItems services negativeResponses := by
      simp [udsItems]
    exact value_eq h_distinct h_table h_decl rfl (mapM_values values_service services)
  · have h_table : Item.table (negativeResponsesTable negativeResponses)
        ∈ udsItems services negativeResponses := by
      simp [udsItems]
    have h_decl : Item.struct generatedNegativeResponse
        ∈ udsItems services negativeResponses := by
      simp [udsItems]
    exact value_eq h_distinct h_table h_decl rfl
      (mapM_values values_negativeResponse negativeResponses)

theorem constant_obd (obd : ObdSpec) :
    constant (obdGenerated isPrintable obd) "GENERATED_PIDS".toList
      = some (obd.pids.map pidRow) := by
  have h_name : generatedPid.name ≠ (pidsTable obd.pids).name := by
    show "GeneratedPid".toList ≠ "GENERATED_PIDS".toList
    decide +kernel
  have h_fields : (generatedPid.fields.map Prod.fst).Nodup := by decide +kernel
  have h_rows := mapM_values values_pid obd.pids
  exact @constant_one_table _ generatedPid (pidsTable obd.pids) _ (scans_obd isPrintable obd)
    h_name h_fields rfl h_rows

theorem constant_j1939 (j1939 : J1939Spec) :
    constant (j1939Generated isPrintable j1939) "GENERATED_PGNS".toList
      = some (j1939.pgns.map pgnRow) := by
  have h_name : generatedPgn.name ≠ (pgnsTable j1939.pgns).name := by
    show "GeneratedPgn".toList ≠ "GENERATED_PGNS".toList
    decide +kernel
  have h_fields : (generatedPgn.fields.map Prod.fst).Nodup := by decide +kernel
  have h_rows := mapM_values values_pgn j1939.pgns
  exact @constant_one_table _ generatedPgn (pgnsTable j1939.pgns) _
    (scans_j1939 isPrintable j1939) h_name h_fields rfl h_rows

theorem udsGenerated_eq {ε : Type} (uds : UdsSpec) :
    (udsGenerated isPrintable uds : Run ε (List Char))
      = orPanic (do
          let services ← numbered NamedByte.sid uds.services
          let negativeResponses ← numbered NamedByte.code uds.negativeResponses
          return udsBefore ++ joinLines (services.map fun e =>
            serviceLine isPrintable e.1 e.2) ++ udsBetween ++ joinLines (negativeResponses.map
            fun e => negativeResponseLine isPrintable e.1 e.2) ++ tableEnd) := by
  unfold udsGenerated
  rw [mapM_lines NamedByte.sid (serviceLine isPrintable),
    mapM_lines NamedByte.code (negativeResponseLine isPrintable)]
  cases numbered NamedByte.sid uds.services with
  | none => rfl
  | some services => cases numbered NamedByte.code uds.negativeResponses <;> rfl

/-- Either an entry has no number, and there is no text, or the text has the meaning asked for. -/
theorem udsGenerated_cases {ε : Type} (uds : UdsSpec) :
    (udsGenerated isPrintable uds : Run ε (List Char)) = .error .panic ∧
        (numbered NamedByte.sid uds.services = none ∨
          numbered NamedByte.code uds.negativeResponses = none) ∨
      ∃ text services negativeResponses,
        (udsGenerated isPrintable uds : Run ε (List Char)) = .ok text ∧
        numbered NamedByte.sid uds.services = some services ∧
        numbered NamedByte.code uds.negativeResponses = some negativeResponses ∧
        constant text "GENERATED_SERVICES".toList = some (services.map byteRow) ∧
        constant text "GENERATED_NEGATIVE_RESPONSES".toList
          = some (negativeResponses.map byteRow) := by
  rw [udsGenerated_eq]
  cases h_services : numbered NamedByte.sid uds.services with
  | none => exact .inl ⟨rfl, .inl rfl⟩
  | some services =>
    cases h_responses : numbered NamedByte.code uds.negativeResponses with
    | none => exact .inl ⟨rfl, .inr rfl⟩
    | some negativeResponses =>
      obtain ⟨h_first, h_second⟩ :=
        @constant_uds isPrintable services negativeResponses _ rfl
      exact .inr ⟨_, services, negativeResponses, rfl, rfl, rfl, h_first, h_second⟩

/-- **The generated tables mean the specifications.** Whatever the numbers and the names are, and
whichever characters `{:?}` escapes, Rust reads from the texts the entries of the specifications
in their order; the only text that is not generated is a UDS one with a number missing. -/
theorem generated_tables {ε : Type} (uds : UdsSpec) (obd : ObdSpec) (j1939 : J1939Spec) :
    ((udsGenerated isPrintable uds : Run ε (List Char)) = .error .panic ∧
        (numbered NamedByte.sid uds.services = none ∨
          numbered NamedByte.code uds.negativeResponses = none) ∨
      ∃ text services negativeResponses,
        (udsGenerated isPrintable uds : Run ε (List Char)) = .ok text ∧
        numbered NamedByte.sid uds.services = some services ∧
        numbered NamedByte.code uds.negativeResponses = some negativeResponses ∧
        constant text "GENERATED_SERVICES".toList = some (services.map byteRow) ∧
        constant text "GENERATED_NEGATIVE_RESPONSES".toList
          = some (negativeResponses.map byteRow)) ∧
    constant (obdGenerated isPrintable obd) "GENERATED_PIDS".toList
      = some (obd.pids.map pidRow) ∧
    constant (j1939Generated isPrintable j1939) "GENERATED_PGNS".toList
      = some (j1939.pgns.map pgnRow) :=
  ⟨udsGenerated_cases isPrintable uds, constant_obd isPrintable obd,
    constant_j1939 isPrintable j1939⟩

end

end Cantools.Xtask
