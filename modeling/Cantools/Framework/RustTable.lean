import Cantools.Framework.RustText

/-!
# Tables of constants in Rust source text

A source file of structures and of constants that are slices of records, and what such a constant
means: the values of its records, in the order in which the structure declares its fields. A
constant has a meaning only where the compiler accepts it: no name is declared twice, and every
record has the fields of the structure, each once and with a value of its type.

`readFile_tokens` is the round trip between such a file and its tokens; `constant_eq` puts it
behind the lexer.
-/

namespace Rust

open Scanner

/-! ### Files -/

/-- A type of a field: a named one, or a reference to one. -/
inductive Ty where
  | named (name : Name)
  | ref (lifetime name : Name)
  deriving DecidableEq, Repr

/-- `#[attr(derives)] pub struct name { pub field: type, }` -/
structure StructDecl where
  attr : Name
  derives : List Name
  name : Name
  fields : List (Name × Ty)
  deriving DecidableEq, Repr

/-- `name { field: literal }` -/
structure Record where
  name : Name
  fields : List (Name × Literal)
  deriving DecidableEq, Repr

/-- `pub const name: &[element] = &[records];` -/
structure Table where
  name : Name
  element : Name
  records : List Record
  deriving DecidableEq, Repr

inductive Item where
  | struct (decl : StructDecl)
  | table (table : Table)
  deriving DecidableEq, Repr

/-! ### Reading -/

def readTy : List Token → Option (Ty × List Token)
  | .word name :: rest => some (.named name, rest)
  | .mark '&' :: .lifetime lifetime :: .word name :: rest => some (.ref lifetime name, rest)
  | _ => none

def readDerive : List Token → Option (Name × List Token)
  | .word name :: rest => some (name, rest)
  | _ => none

def readField : List Token → Option ((Name × Ty) × List Token)
  | .keyword .pub :: .word name :: .mark ':' :: rest => do
    let (ty, rest) ← readTy rest
    return ((name, ty), rest)
  | _ => none

def readValue : List Token → Option ((Name × Literal) × List Token)
  | .word name :: .mark ':' :: .lit value :: rest => some ((name, value), rest)
  | _ => none

def readRecord : List Token → Option (Record × List Token)
  | .word name :: .mark '{' :: rest => do
    let (fields, rest) ← separated (.mark ',') (.mark '}') readValue rest
    return ({ name, fields }, rest)
  | _ => none

def readStruct (attr : Name) : List Token → Option (StructDecl × List Token)
  | tokens => do
    let (derives, rest) ← separated (.mark ',') (.mark ')') readDerive tokens
    match rest with
    | .mark ']' :: .keyword .pub :: .keyword .struct :: .word name :: .mark '{' :: rest => do
      let (fields, rest) ← separated (.mark ',') (.mark '}') readField rest
      return ({ attr, derives, name, fields }, rest)
    | _ => none

def readTable (name element : Name) : List Token → Option (Table × List Token)
  | tokens => do
    let (records, rest) ← separated (.mark ',') (.mark ']') readRecord tokens
    match rest with
    | .mark ';' :: rest => return ({ name, element, records }, rest)
    | _ => none

def readItem : List Token → Option (Item × List Token)
  | .mark '#' :: .mark '[' :: .word attr :: .mark '(' :: rest => do
    let (decl, rest) ← readStruct attr rest
    return (.struct decl, rest)
  | .keyword .pub :: .keyword .const :: .word name :: .mark ':' :: .mark '&' :: .mark '[' ::
      .word element :: .mark ']' :: .mark '=' :: .mark '&' :: .mark '[' :: rest => do
    let (table, rest) ← readTable name element rest
    return (.table table, rest)
  | _ => none

/-- The items of a file. -/
def readFile (tokens : List Token) : Option (List Item) := all readItem tokens

/-! ### Printing -/

def Ty.tokens : Ty → List Token
  | .named name => [.word name]
  | .ref lifetime name => [.mark '&', .lifetime lifetime, .word name]

def fieldTokens (field : Name × Ty) : List Token :=
  [.keyword .pub, .word field.1, .mark ':'] ++ field.2.tokens

def valueTokens (value : Name × Literal) : List Token :=
  [.word value.1, .mark ':', .lit value.2]

def Record.tokens (r : Record) : List Token :=
  [.word r.name, .mark '{'] ++ ([.mark ','].intercalate (r.fields.map valueTokens) ++ [.mark '}'])

def StructDecl.tokens (d : StructDecl) : List Token :=
  [.mark '#', .mark '[', .word d.attr, .mark '('] ++
    ([.mark ','].intercalate (d.derives.map fun name => [Token.word name]) ++ .mark ')' ::
      ([.mark ']', .keyword .pub, .keyword .struct, .word d.name, .mark '{'] ++
        (d.fields.flatMap (fun field => fieldTokens field ++ [.mark ',']) ++ [.mark '}'])))

/-- The tokens of a constant before its records. -/
def tableOpening (name element : Name) : List Token :=
  [.keyword .pub, .keyword .const, .word name, .mark ':', .mark '&', .mark '[', .word element,
    .mark ']', .mark '=', .mark '&', .mark '[']

def Table.tokens (t : Table) : List Token :=
  tableOpening t.name t.element ++
    (t.records.flatMap (fun r => r.tokens ++ [.mark ',']) ++ [.mark ']', .mark ';'])

def Item.tokens : Item → List Token
  | .struct d => d.tokens
  | .table t => t.tokens

/-! ### Round trip -/

theorem readTy_tokens (ty : Ty) (rest : List Token) :
    readTy (ty.tokens ++ rest) = some (ty, rest) := by
  cases ty <;> rfl

theorem readField_tokens (field : Name × Ty) (rest : List Token) :
    readField (fieldTokens field ++ rest) = some (field, rest) := by
  rw [fieldTokens, List.append_assoc]
  show (readTy (field.2.tokens ++ rest)).bind _ = _
  rw [readTy_tokens]
  rfl

theorem readRecord_tokens (r : Record) (rest : List Token) :
    readRecord (r.tokens ++ rest) = some (r, rest) := by
  have h_fields := @separated_intercalate _ _ readValue _ (.mark ',') (.mark '}') valueTokens
    r.fields (fun value _ => ⟨_, _, rfl, nofun⟩) (fun value _ rest => rfl) rest (by decide)
  rw [Record.tokens, List.append_assoc, List.append_assoc, List.singleton_append]
  show (separated _ _ readValue ([.mark ','].intercalate (r.fields.map valueTokens) ++
    .mark '}' :: rest)).bind _ = _
  rw [h_fields]
  rfl

theorem readStruct_tokens (d : StructDecl) (rest : List Token) :
    readItem (d.tokens ++ rest) = some (.struct d, rest) := by
  have h_derives := @separated_intercalate _ _ readDerive _ (.mark ',') (.mark ')')
    (fun name => [Token.word name]) d.derives (fun value _ => ⟨_, _, rfl, nofun⟩)
    (fun value _ rest => rfl)
  have h_fields := @separated_terminated _ _ readField _ (.mark ',') (.mark '}') fieldTokens
    d.fields (fun value _ => ⟨_, _, rfl, nofun⟩) (fun value _ rest => readField_tokens value rest)
    rest (by decide)
  have h_struct : readStruct d.attr (([.mark ','].intercalate (d.derives.map fun name =>
        [Token.word name]) ++ .mark ')' ::
      ([.mark ']', .keyword .pub, .keyword .struct, .word d.name, .mark '{'] ++
        (d.fields.flatMap (fun field => fieldTokens field ++ [.mark ',']) ++ .mark '}' :: rest))))
      = some (d, rest) := by
    -- the derives end at the parenthesis, and the fields begin behind the name
    rw [readStruct, h_derives _ (by decide)]
    show (separated _ _ readField (d.fields.flatMap (fun field => fieldTokens field ++ [.mark ','])
      ++ .mark '}' :: rest)).bind _ = _
    rw [h_fields]
    rfl
  have h_text : d.tokens ++ rest = [.mark '#', .mark '[', .word d.attr, .mark '('] ++
      ([.mark ','].intercalate (d.derives.map fun name => [Token.word name]) ++ .mark ')' ::
      ([.mark ']', .keyword .pub, .keyword .struct, .word d.name, .mark '{'] ++
        (d.fields.flatMap (fun field => fieldTokens field ++ [.mark ',']) ++
          .mark '}' :: rest))) := by
    simp only [StructDecl.tokens, List.append_assoc, List.cons_append, List.nil_append]
  rw [h_text]
  show Option.bind (readStruct d.attr (_ ++ _)) _ = _
  exact (congrArg (fun x => Option.bind x _) h_struct).trans rfl

theorem readTable_tokens (t : Table) (rest : List Token) :
    readItem (t.tokens ++ rest) = some (.table t, rest) := by
  have h_records := @separated_terminated _ _ readRecord _ (.mark ',') (.mark ']') Record.tokens
    t.records (fun r _ => ⟨_, _, rfl, nofun⟩) (fun r _ rest => readRecord_tokens r rest)
    (.mark ';' :: rest) (by decide)
  have h_table : readTable t.name t.element (t.records.flatMap (fun r => r.tokens ++ [.mark ',']) ++
      .mark ']' :: .mark ';' :: rest) = some (t, rest) := by
    rw [readTable, h_records]
    rfl
  rw [Table.tokens, List.append_assoc, List.append_assoc]
  show (readTable t.name t.element (t.records.flatMap (fun r => r.tokens ++ [.mark ',']) ++
    .mark ']' :: .mark ';' :: rest)).bind _ = _
  rw [h_table]
  rfl

/-- **Round trip.** A file is read back from the tokens of its items. -/
theorem readFile_tokens (items : List Item) :
    readFile (items.flatMap Item.tokens) = some items := by
  refine all_flatMap (fun item _ => ?_) fun item _ rest => ?_
  · cases item <;> exact List.cons_ne_nil _ _
  · cases item with
    | struct decl => exact readStruct_tokens decl rest
    | table table => exact readTable_tokens table rest

/-! ### Printed records -/

/-- The text behind the first field of a record: what is left of its fields, and its end. -/
inductive Printed : List (Name × Literal) → List Char → Prop where
  | last {closing : List Char} (h_head : closing.head?.map isWordChar = some false)
      (h : Scans step .blank closing [.mark '}', .mark ','] .blank) : Printed [] closing
  | more {fields : List (Name × Literal)} {field : Name} {value : Literal}
      {label text rest : List Char} (h_head : label.head?.map isWordChar = some false)
      (h_label : Scans step .blank label [.mark ',', .word field, .mark ':'] .blank)
      (h_text : Shows text value) (h_rest : Printed fields rest) :
      Printed ((field, value) :: fields) (label ++ (text ++ rest))

theorem Printed.scans {fields : List (Name × Literal)} {text : List Char}
    (h : Printed fields text) : text.head?.map isWordChar = some false ∧
      Scans step .blank text
        (fields.flatMap (fun field => .mark ',' :: valueTokens field) ++ [.mark '}', .mark ','])
        .blank := by
  induction h with
  | last h_head h => exact ⟨h_head, h⟩
  | @more fields field value label text rest h_head h_label h_text h_rest ih =>
    -- the value ends because no word goes on behind it
    refine ⟨?_, h_label.append (h_text _ _ _ ih.1 ih.2)⟩
    cases label with
    | nil => cases h_head
    | cons c label => exact h_head

theorem intercalate_valueTokens (field : Name × Literal) (fields : List (Name × Literal)) :
    [Token.mark ','].intercalate ((field :: fields).map valueTokens)
      = valueTokens field ++ fields.flatMap fun field => .mark ',' :: valueTokens field := by
  induction fields generalizing field with
  | nil => rw [List.map_singleton, List.intercalate_singleton, List.flatMap_nil, List.append_nil]
  | cons next fields ih =>
    rw [List.map_cons, List.map_cons, List.intercalate_cons_cons, ← List.map_cons, ih next]
    rfl

/-- **A printed record** and the comma behind it. -/
theorem scans_record {name field : Name} {value : Literal} {fields : List (Name × Literal)}
    {opening text rest : List Char}
    (h_opening : Scans step .blank opening [.word name, .mark '{', .word field, .mark ':'] .blank)
    (h_text : Shows text value) (h_rest : Printed fields rest) :
    Scans step .blank (opening ++ (text ++ rest))
      (Record.tokens { name, fields := (field, value) :: fields } ++ [.mark ',']) .blank := by
  have h_scans := h_opening.append (h_text _ _ _ h_rest.scans.1 h_rest.scans.2)
  have h_tokens : Record.tokens { name, fields := (field, value) :: fields } ++ [.mark ',']
      = [.word name, .mark '{', .word field, .mark ':'] ++ (.lit value ::
        (fields.flatMap (fun field => .mark ',' :: valueTokens field) ++
          [.mark '}', .mark ','])) := by
    rw [Record.tokens, intercalate_valueTokens, List.append_assoc, List.append_assoc,
      List.append_assoc]
    rfl
  rw [h_tokens]
  exact h_scans

/-! ### Meaning -/

/-- The value is one of the type. -/
def Literal.hasTy : Literal → Ty → Bool
  | .int n, .named ty => (ty = "u8".toList && n < 2 ^ 8) || (ty = "u32".toList && n < 2 ^ 32)
  | .str _, .ref lifetime ty => lifetime = "static".toList && ty = "str".toList
  | _, _ => false

/-- The value of a declared field. -/
def Record.valueOf (r : Record) (field : Name × Ty) : Option Literal := do
  let value ← r.fields.lookup field.1
  if value.hasTy field.2 then some value else none

/-- The values of a record, in the order of the declaration. -/
def Record.values (decl : StructDecl) (r : Record) : Option (List Literal) :=
  if r.name = decl.name ∧ r.fields.length = decl.fields.length then decl.fields.mapM r.valueOf
  else none

def Item.name : Item → Name
  | .struct d => d.name
  | .table t => t.name

/-- No name of the file is declared twice. -/
def Distinct (items : List Item) : Prop :=
  (items.map Item.name).Nodup ∧ ∀ item ∈ items, match item with
    | .struct decl => (decl.fields.map Prod.fst).Nodup
    | .table _ => True

instance (items : List Item) : Decidable (Distinct items) := by
  unfold Distinct
  refine @instDecidableAnd _ _ _ (@List.decidableBAll _ _ (fun item => ?_) _)
  cases item <;> infer_instance

def Item.tableNamed (name : Name) : Item → Option Table
  | .table t => if t.name = name then some t else none
  | .struct _ => none

def Item.structNamed (name : Name) : Item → Option StructDecl
  | .struct d => if d.name = name then some d else none
  | .table _ => none

theorem Item.name_of_tableNamed {name : Name} {item : Item} {t : Table}
    (h : item.tableNamed name = some t) : item.name = name := by
  cases item with
  | struct d => cases h
  | table t => exact (Option.ite_none_right_eq_some.mp h).1

theorem Item.name_of_structNamed {name : Name} {item : Item} {d : StructDecl}
    (h : item.structNamed name = some d) : item.name = name := by
  cases item with
  | struct d => exact (Option.ite_none_right_eq_some.mp h).1
  | table t => cases h

/-- The value of a constant of a file. -/
def value (items : List Item) (name : Name) : Option (List (List Literal)) :=
  if Distinct items then do
    let table ← items.findSome? (Item.tableNamed name)
    let decl ← items.findSome? (Item.structNamed table.element)
    table.records.mapM (Record.values decl)
  else none

/-- An item is found by its name. -/
theorem findSome?_of_distinct {α : Type} {items : List Item} (h_distinct : Distinct items)
    {pick : Item → Option α} {item : Item} {a : α} (h_item : item ∈ items)
    (h_pick : pick item = some a)
    (h_name : ∀ other b, pick other = some b → other.name = item.name) :
    items.findSome? pick = some a := by
  cases h : items.findSome? pick with
  | none =>
    have h_none := List.findSome?_eq_none_iff.mp h item h_item
    cases h_none.symm.trans h_pick
  | some b =>
    obtain ⟨other, h_other, h_b⟩ := List.exists_of_findSome?_eq_some h
    have h_same := List.inj_on_of_nodup_map h_distinct.1 h_other h_item (h_name other b h_b)
    rw [← h_b, h_same, h_pick]

/-- **A constant** has the values of its records. -/
theorem value_eq {items : List Item} {table : Table} {decl : StructDecl}
    {rows : List (List Literal)} (h_distinct : Distinct items) (h_table : .table table ∈ items)
    (h_decl : .struct decl ∈ items) (h_element : decl.name = table.element)
    (h_rows : table.records.mapM (Record.values decl) = some rows) :
    value items table.name = some rows := by
  have h_findTable : items.findSome? (Item.tableNamed table.name) = some table :=
    findSome?_of_distinct h_distinct h_table (if_pos rfl) fun _ _ => Item.name_of_tableNamed
  have h_findDecl : items.findSome? (Item.structNamed table.element) = some decl := by
    rw [← h_element]
    exact findSome?_of_distinct h_distinct h_decl (if_pos rfl) fun _ _ => Item.name_of_structNamed
  rw [value, if_pos h_distinct, h_findTable]
  show (items.findSome? (Item.structNamed table.element)).bind _ = _
  rw [h_findDecl]
  exact h_rows

theorem lookup_of_mem {α β : Type} [BEq α] [LawfulBEq α] {pairs : List (α × β)}
    (h_nodup : (pairs.map Prod.fst).Nodup) {pair : α × β} (h : pair ∈ pairs) :
    pairs.lookup pair.1 = some pair.2 := by
  induction pairs with
  | nil => cases h
  | cons first pairs ih =>
    rw [List.map_cons, List.nodup_cons] at h_nodup
    rw [List.lookup_cons]
    rcases List.mem_cons.mp h with rfl | h
    · rw [beq_self_eq_true]
    · have h_ne : pair.1 ≠ first.1 := fun h_eq =>
        h_nodup.1 (h_eq ▸ List.mem_map_of_mem h)
      rw [beq_false_of_ne h_ne]
      exact ih h_nodup.2 h

/-- **A record** with the fields of the declaration, in its order and of its types. -/
theorem Record.values_eq {decl : StructDecl} {r : Record} (h_name : r.name = decl.name)
    (h_nodup : (decl.fields.map Prod.fst).Nodup)
    (h_fields : List.Forall₂ (fun d f => f.1 = d.1 ∧ f.2.hasTy d.2) decl.fields r.fields) :
    r.values decl = some (r.fields.map Prod.snd) := by
  -- the record has the fields of the declaration, in its order
  have h_names : r.fields.map Prod.fst = decl.fields.map Prod.fst := by
    clear h_name h_nodup
    generalize decl.fields = ds at h_fields
    generalize r.fields = fs at h_fields
    induction h_fields with
    | nil => rfl
    | cons h_head _ ih => rw [List.map_cons, List.map_cons, h_head.1, ih]
  -- a name stands once, so it is looked up where it stands
  have h_lookup : ∀ f ∈ r.fields, r.fields.lookup f.1 = some f.2 := fun f h_f =>
    lookup_of_mem (h_names ▸ h_nodup) h_f
  -- field by field, over any part of the declaration
  have h_values : ∀ ds fs, List.Forall₂ (fun d f => f.1 = d.1 ∧ f.2.hasTy d.2) ds fs →
      (∀ f ∈ fs, r.fields.lookup f.1 = some f.2) →
      ds.mapM r.valueOf = some (fs.map Prod.snd) := by
    intro ds fs h_all
    induction h_all with
    | nil => exact fun _ => rfl
    | @cons d f ds fs h_head _ ih =>
      intro h_lookup
      have h_rest := ih fun g h_g => h_lookup g (List.mem_cons_of_mem _ h_g)
      have h_first : r.valueOf d = some f.2 := by
        rw [Record.valueOf, ← h_head.1, h_lookup f (List.mem_cons_self ..)]
        exact if_pos h_head.2
      rw [List.mapM_cons, h_first, h_rest]
      rfl
  have h_shape : r.name = decl.name ∧ r.fields.length = decl.fields.length :=
    ⟨h_name, h_fields.length_eq.symm⟩
  rw [Record.values, if_pos h_shape]
  exact h_values _ _ h_fields h_lookup

/-- The records of a table, each with its values. -/
theorem mapM_values {α : Type} {decl : StructDecl} {record : α → Record} {row : α → List Literal}
    (h : ∀ a, (record a).values decl = some (row a)) (as : List α) :
    (as.map record).mapM (Record.values decl) = some (as.map row) := by
  induction as with
  | nil => rfl
  | cons a as ih =>
    rw [List.map_cons, List.mapM_cons, h, ih]
    rfl

/-- The value of a constant of a source text. -/
def constant (source : List Char) (name : Name) : Option (List (List Literal)) := do
  let tokens ← lex source
  let items ← readFile tokens
  value items name

/-- **The constants of a text** whose tokens are those of a file. -/
theorem constant_eq {source : List Char} {items : List Item}
    (h : Scans step .blank source (items.flatMap Item.tokens) .blank) (name : Name) :
    constant source name = value items name := by
  rw [constant, lex_of_scans h]
  show (readFile _).bind _ = _
  rw [readFile_tokens]
  rfl

/-- The constant of a file that declares one structure and one table of it. -/
theorem constant_one_table {source : List Char} {decl : StructDecl} {table : Table}
    {rows : List (List Literal)}
    (h : Scans step .blank source ([.struct decl, .table table].flatMap Item.tokens) .blank)
    (h_name : decl.name ≠ table.name) (h_fields : (decl.fields.map Prod.fst).Nodup)
    (h_element : decl.name = table.element)
    (h_rows : table.records.mapM (Record.values decl) = some rows) :
    constant source table.name = some rows := by
  have h_distinct : Distinct [.struct decl, .table table] := by
    have h_names : [decl.name, table.name].Nodup := by simpa using h_name
    refine ⟨h_names, fun item h_item => ?_⟩
    rcases List.mem_pair.mp h_item with rfl | rfl
    · exact h_fields
    · trivial
  rw [constant_eq h]
  exact value_eq h_distinct (List.mem_pair.mpr (.inr rfl)) (List.mem_pair.mpr (.inl rfl))
    h_element h_rows

end Rust
