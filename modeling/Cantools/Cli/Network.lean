import Cantools.Cli.Commands
import Cantools.Framework.Broadcast
import Cantools.Framework.Interleaving

/-!
# Commands on CAN interfaces

Any number of commands run side by side, each with a socket of its own. The interfaces are a
broadcast network with the interface names as groups and the bytes of frames as messages: a frame
that is written waits to be sent, the frames of one socket in order; it is then received by all
other sockets that are bound to the interface and accept it, and any of them may lose it. A call may
also fail, with any error, and then does nothing.

This network is an abstraction, which remembers what was done. `Cli.Interfaces` says what is relied
on in a kernel, and follows its runs on the network.

`Accounts` ties the network to what the commands were answered, in every run (`run_accounts`), and
`Dated` to the number of frames that were sent (`run_dated`).
-/

namespace Cantools.Cli

open Broadcast Dialogue Interleaving

/-- The interfaces, with the sockets of the commands. -/
abbrev Net (ι : Type) := Broadcast.Network ι String (List UInt8)

section

variable {ι ε δ : Type} [DecidableEq ι]

/-! ### The environment -/

/-- What is answered to a call that succeeds. There is no answer yet where `recv` waits. -/
def reply (net : Net ι) (i : ι) : (call : Syscall) → Option (call.Answer × Net ι)
  | .openRaw interface => (net.attach i interface).map fun net => (.ok (), net)
  | .write bytes => (net.put i bytes).map fun net => (.ok (), net)
  | .recv => (net.take i).map fun taken => (.ok taken.1.message, taken.2)
  | .sleep _ => some ((), net)
  | .print _ => some ((), net)
  | .report _ => some ((), net)

/-- The call failed. -/
def Failed : Event Syscall.Answer → Prop
  | ⟨.openRaw _, .error _⟩ => True
  | ⟨.write _, .error _⟩ => True
  | ⟨.recv, .error _⟩ => True
  | _ => False

instance : DecidablePred Failed := fun ⟨call, answer⟩ =>
  match call, answer with
  | .openRaw _, .error _ => isTrue trivial
  | .write _, .error _ => isTrue trivial
  | .recv, .error _ => isTrue trivial
  | .openRaw _, .ok _ => isFalse id
  | .write _, .ok _ => isFalse id
  | .recv, .ok _ => isFalse id
  | .sleep _, _ => isFalse id
  | .print _, _ => isFalse id
  | .report _, _ => isFalse id

/-- Calls succeed or fail, and frames are sent. -/
def environment (accepts : List UInt8 → Bool) : Environment ι (Net ι) Syscall.Answer where
  answers net i event next :=
    reply net i event.question = some (event.answer, next) ∨ Failed event ∧ next = net
  moves net next := ∃ i loses, net.deliver accepts loses i = some next

/-- Commands as they are started. -/
def start {World σ Factor : Type} (host : Host σ ε δ Factor) (files : σ)
    (commands : ι → Command Factor) (world : World) :
    Config ι World Syscall.Answer (Program.Fault (CommandError ε δ)) Unit where
  world := world
  process i := (commands i).routine host files

/-! ### What a command was answered -/

/-- The interface of a socket that was opened. -/
def opens : Event Syscall.Answer → Option String
  | ⟨.openRaw interface, .ok ()⟩ => some interface
  | _ => none

/-- The bytes that were written. -/
def writes : Event Syscall.Answer → Option (List UInt8)
  | ⟨.write bytes, .ok ()⟩ => some bytes
  | _ => none

/-- The bytes that were received. -/
def hears : Event Syscall.Answer → Option (List UInt8)
  | ⟨.recv, .ok bytes⟩ => some bytes
  | _ => none

/-- The line that was printed. -/
def prints : Event Syscall.Answer → Option (List Char)
  | ⟨.print line, _⟩ => some line
  | _ => none

def opened (trace : List (Event Syscall.Answer)) : List String := trace.filterMap opens

def written (trace : List (Event Syscall.Answer)) : List (List UInt8) := trace.filterMap writes

def heard (trace : List (Event Syscall.Answer)) : List (List UInt8) := trace.filterMap hears

def printed (trace : List (Event Syscall.Answer)) : List (List Char) := trace.filterMap prints

section Snoc

variable (trace : List (Event Syscall.Answer)) (event : Event Syscall.Answer)

theorem opened_snoc : opened (trace ++ [event]) = opened trace ++ (opens event).toList :=
  filterMap_snoc ..

theorem written_snoc : written (trace ++ [event]) = written trace ++ (writes event).toList :=
  filterMap_snoc ..

theorem heard_snoc : heard (trace ++ [event]) = heard trace ++ (hears event).toList :=
  filterMap_snoc ..

theorem printed_snoc : printed (trace ++ [event]) = printed trace ++ (prints event).toList :=
  filterMap_snoc ..

end Snoc

/-- The network has the histories of the commands. -/
structure Accounts (accepts : List UInt8 → Bool) (net : Net ι)
    (labels : List (Label ι Syscall.Answer)) : Prop where
  sound : net.Sound accepts
  opened : ∀ i, opened (view i labels) = (net.history i).attached
  written : ∀ i, written (view i labels) = (net.history i).posted
  heard : ∀ i, heard (view i labels) = (net.history i).taken.map Packet.message

variable {accepts : List UInt8 → Bool}

theorem accounts_empty : Accounts accepts (Network.empty : Net ι) [] :=
  ⟨Network.sound_empty, fun _ => rfl, fun _ => rfl, fun _ => rfl⟩

variable {net next : Net ι} {labels : List (Label ι Syscall.Answer)}

/-- A step of one command changes its own history only. -/
theorem Accounts.answer (h : Accounts accepts net labels) (h_sound : next.Sound accepts) {i : ι}
    {event : Event Syscall.Answer} {after : Broadcast.History ι String (List UInt8)}
    (h_next : next.history = Function.update net.history i after)
    (h_opened : after.attached = (net.history i).attached ++ (opens event).toList)
    (h_written : after.posted = (net.history i).posted ++ (writes event).toList)
    (h_heard : after.taken.map Packet.message
      = (net.history i).taken.map Packet.message ++ (hears event).toList) :
    Accounts accepts next (labels ++ [some (i, event)]) := by
  refine ⟨h_sound, fun j => ?_, fun j => ?_, fun j => ?_⟩
  all_goals by_cases h_j : i = j
  · subst h_j
    rw [view_snoc_self, opened_snoc, h.opened, h_next, Function.update_self, h_opened]
  · rw [view_snoc_other h_j, h.opened, h_next, Function.update_of_ne (Ne.symm h_j)]
  · subst h_j
    rw [view_snoc_self, written_snoc, h.written, h_next, Function.update_self, h_written]
  · rw [view_snoc_other h_j, h.written, h_next, Function.update_of_ne (Ne.symm h_j)]
  · subst h_j
    rw [view_snoc_self, heard_snoc, h.heard, h_next, Function.update_self, h_heard]
  · rw [view_snoc_other h_j, h.heard, h_next, Function.update_of_ne (Ne.symm h_j)]

/-- A step of a command that is in no history. -/
theorem Accounts.silent (h : Accounts accepts net labels) (i : ι) {event : Event Syscall.Answer}
    (h_opens : opens event = none) (h_writes : writes event = none)
    (h_hears : hears event = none) : Accounts accepts net (labels ++ [some (i, event)]) := by
  refine h.answer h.sound (Function.update_eq_self i net.history).symm ?_ ?_ ?_
  · rw [h_opens, Option.toList_none, List.append_nil]
  · rw [h_writes, Option.toList_none, List.append_nil]
  · rw [h_hears, Option.toList_none, List.append_nil]

/-- A call that failed did nothing. -/
theorem Failed.silent {event : Event Syscall.Answer} (h : Failed event) :
    opens event = none ∧ writes event = none ∧ hears event = none := by
  obtain ⟨call, answer⟩ := event
  cases call with
  | openRaw interface =>
    cases answer with
    | ok _ => exact h.elim
    | error e => exact ⟨rfl, rfl, rfl⟩
  | write bytes =>
    cases answer with
    | ok _ => exact h.elim
    | error e => exact ⟨rfl, rfl, rfl⟩
  | recv =>
    cases answer with
    | ok _ => exact h.elim
    | error e => exact ⟨rfl, rfl, rfl⟩
  | _ => exact ⟨rfl, rfl, rfl⟩

/-- **What an answer does** to the network: a socket is opened, written to or read from, or nothing
is done. -/
theorem answers_cases {i : ι} {event : Event Syscall.Answer}
    (h : (environment accepts).answers net i event next) :
    (∃ interface, event = ⟨.openRaw interface, .ok ()⟩ ∧ net.attach i interface = some next) ∨
      (∃ bytes, event = ⟨.write bytes, .ok ()⟩ ∧ net.put i bytes = some next) ∨
      (∃ packet, event = ⟨.recv, .ok packet.message⟩ ∧ net.take i = some (packet, next)) ∨
      ((opens event = none ∧ writes event = none ∧ hears event = none) ∧ next = net) := by
  obtain h_reply | ⟨h_failed, rfl⟩ := h
  · obtain ⟨call, answer⟩ := event
    cases call with
    | openRaw interface =>
      obtain ⟨net', h_attach, h_eq⟩ := Option.map_eq_some_iff.mp h_reply
      cases h_eq
      exact .inl ⟨interface, rfl, h_attach⟩
    | write bytes =>
      obtain ⟨net', h_put, h_eq⟩ := Option.map_eq_some_iff.mp h_reply
      cases h_eq
      exact .inr (.inl ⟨bytes, rfl, h_put⟩)
    | recv =>
      obtain ⟨⟨packet, net'⟩, h_take, h_eq⟩ := Option.map_eq_some_iff.mp h_reply
      cases h_eq
      exact .inr (.inr (.inl ⟨packet, rfl, h_take⟩))
    | _ =>
      -- sleeping and printing are not about sockets
      cases h_reply
      exact .inr (.inr (.inr ⟨⟨rfl, rfl, rfl⟩, rfl⟩))
  · exact .inr (.inr (.inr ⟨h_failed.silent, rfl⟩))

/-- **Accounts are kept** by every answer. -/
theorem Accounts.answers (h : Accounts accepts net labels) {i : ι} {event : Event Syscall.Answer}
    (h_answers : (environment accepts).answers net i event next) :
    Accounts accepts next (labels ++ [some (i, event)]) := by
  obtain ⟨interface, rfl, h_attach⟩ | ⟨bytes, rfl, h_put⟩ | ⟨packet, rfl, h_take⟩ |
    ⟨⟨h_opens, h_writes, h_hears⟩, rfl⟩ := answers_cases h_answers
  · obtain ⟨h_before, h_after⟩ := Network.history_attach h_attach
    refine h.answer (h.sound.attach h_attach) h_after ?_ ?_ ?_
    -- an endpoint that is new has no history
    all_goals rw [h_before]; rfl
  · exact h.answer (h.sound.put h_put) (Network.history_put h_put) (List.append_nil _).symm rfl
      (List.append_nil _).symm
  · exact h.answer (h.sound.take h_take) (Network.history_take h_take) (List.append_nil _).symm
      (List.append_nil _).symm List.map_append
  · exact h.silent i h_opens h_writes h_hears

/-- **Accounts are kept** by every frame that is sent: it is in no history. -/
theorem Accounts.deliver (h : Accounts accepts net labels) {i : ι} {loses : ι → Bool}
    (h_deliver : net.deliver accepts loses i = some next) :
    Accounts accepts next (labels ++ [none]) := by
  have h_history := Network.history_deliver h_deliver
  refine ⟨h.sound.deliver h_deliver, fun j => ?_, fun j => ?_, fun j => ?_⟩
  · rw [view_snoc_move, h.opened, h_history]
  · rw [view_snoc_move, h.written, h_history]
  · rw [view_snoc_move, h.heard, h_history]

/-- **Every run keeps the accounts.** -/
theorem run_accounts
    {c c' : Config ι (Net ι) Syscall.Answer (Program.Fault (CommandError ε δ)) Unit}
    (h : Run (environment accepts) c labels c') (h_start : c.world = Network.empty) :
    Accounts accepts c'.world labels := by
  refine h.invariant (h_start ▸ accounts_empty)
    (fun _ _ _ _ _ h h_answers => h.answers h_answers) ?_
  rintro world labels next h ⟨i, loses, h_deliver⟩
  exact h.deliver h_deliver

/-! ### When a socket was opened -/

/-- How many frames were sent. -/
def sends (labels : List (Label ι Syscall.Answer)) : ℕ := labels.countP Option.isNone

/-- The socket was opened in this step. -/
def joins (i : ι) (label : Label ι Syscall.Answer) : Bool := ((part i label).bind opens).isSome

/-- How many frames were sent before the socket was opened. -/
def joined (i : ι) (labels : List (Label ι Syscall.Answer)) : ℕ :=
  sends (labels.takeWhile fun label => !joins i label)

omit [DecidableEq ι] in
theorem sends_snoc (labels : List (Label ι Syscall.Answer)) (label : Label ι Syscall.Answer) :
    sends (labels ++ [label]) = sends labels + if label.isNone then 1 else 0 := by
  rw [sends, List.countP_append, List.countP_singleton, ← sends]

theorem opened_eq_nil_iff {i : ι} {labels : List (Label ι Syscall.Answer)} :
    opened (view i labels) = [] ↔ ∀ label ∈ labels, (!joins i label) = true := by
  rw [opened, view, List.filterMap_filterMap, List.filterMap_eq_nil_iff]
  refine forall₂_congr fun label _ => ?_
  rw [joins, Bool.not_eq_true', Option.isSome_eq_false_iff, Option.isNone_iff_eq_none]

/-- The step in which the socket is opened is behind all frames sent so far. -/
theorem joined_snoc_new {i : ι} {labels : List (Label ι Syscall.Answer)}
    {label : Label ι Syscall.Answer} (h : opened (view i labels) = []) (h_joins : joins i label) :
    joined i (labels ++ [label]) = sends labels := by
  rw [joined, List.takeWhile_append_of_pos (opened_eq_nil_iff.mp h),
    List.takeWhile_cons_of_neg (by simp [h_joins]), List.append_nil]

/-- What comes later does not change when a socket was opened. -/
theorem joined_snoc_old {i : ι} {labels : List (Label ι Syscall.Answer)}
    (h : opened (view i labels) ≠ []) (label : Label ι Syscall.Answer) :
    joined i (labels ++ [label]) = joined i labels := by
  have h_stops : (labels.takeWhile fun label => !joins i label).length ≠ labels.length := by
    intro h_length
    have h_all := List.takeWhile_eq_self_iff.mp
      ((List.takeWhile_prefix _).eq_of_length h_length)
    exact h (opened_eq_nil_iff.mpr h_all)
  rw [joined, List.takeWhile_append, if_neg h_stops, joined]

/-- The log has the frames that were sent, and every socket has its place in it. -/
structure Dated (net : Net ι) (labels : List (Label ι Syscall.Answer)) : Prop where
  length : net.log.length = sends labels
  since : ∀ i e, net.endpoint i = some e → e.since = joined i labels

theorem dated_empty : Dated (Network.empty : Net ι) [] := ⟨rfl, fun _ _ h => nomatch h⟩

/-- An open socket has been opened. -/
theorem Accounts.opened_ne_nil (h : Accounts accepts net labels) {i : ι}
    {e : Endpoint ι String (List UInt8)} (h_e : net.endpoint i = some e) :
    Cli.opened (view i labels) ≠ [] := by
  rw [h.opened, Network.history_some h_e]
  exact fun h_nil => nomatch h_nil

/-- A step that leaves the log alone, and no socket younger than it was. -/
theorem Dated.answer (h : Dated net labels) (h_accounts : Accounts accepts net labels) {i : ι}
    {event : Event Syscall.Answer} (h_log : next.log = net.log)
    (h_since : ∀ j e, next.endpoint j = some e →
      ∃ before, net.endpoint j = some before ∧ before.since = e.since) :
    Dated next (labels ++ [some (i, event)]) := by
  refine ⟨?_, fun j e h_e => ?_⟩
  · rw [h_log, h.length, sends_snoc]
    rfl
  · obtain ⟨before, h_before, h_eq⟩ := h_since j e h_e
    rw [← h_eq, h.since j before h_before,
      joined_snoc_old (h_accounts.opened_ne_nil h_before)]

/-- Another content of a socket that is as old. -/
theorem exists_since_set {i : ι} {e e' : Endpoint ι String (List UInt8)}
    (h_e : net.endpoint i = some e) (h_since : e'.since = e.since) :
    ∀ j f, (net.set i e').endpoint j = some f →
      ∃ before, net.endpoint j = some before ∧ before.since = f.since := by
  intro j f h_f
  by_cases h_j : j = i
  · subst h_j
    rw [Network.set_self] at h_f
    cases h_f
    exact ⟨e, h_e, h_since.symm⟩
  · rw [Network.set_other _ h_j] at h_f
    exact ⟨f, h_f, rfl⟩

/-- A new socket is behind all frames that were sent. -/
theorem Dated.attach (h : Dated net labels) (h_accounts : Accounts accepts net labels) {i : ι}
    {interface : String} (h_attach : net.attach i interface = some next) :
    Dated next (labels ++ [some (i, ⟨.openRaw interface, .ok ()⟩)]) := by
  obtain ⟨h_none, rfl⟩ := Network.attach_eq_some_iff.mp h_attach
  refine ⟨?_, fun j e h_e => ?_⟩
  · rw [Network.set_log, h.length, sends_snoc]
    rfl
  · by_cases h_j : j = i
    · -- the new socket
      subst h_j
      rw [Network.set_self] at h_e
      cases h_e
      have h_new : Cli.opened (view j labels) = [] := by
        rw [h_accounts.opened, Network.history_none h_none]
      have h_joins : joins j (some (j, ⟨.openRaw interface, .ok ()⟩)) = true := by
        rw [joins, part_self]
        rfl
      rw [joined_snoc_new h_new h_joins]
      exact h.length
    · -- the other sockets are as old as before
      rw [Network.set_other _ h_j] at h_e
      rw [h.since j e h_e, joined_snoc_old (h_accounts.opened_ne_nil h_e)]

/-- **The places are kept** by every answer. -/
theorem Dated.answers (h : Dated net labels) (h_accounts : Accounts accepts net labels) {i : ι}
    {event : Event Syscall.Answer} (h_answers : (environment accepts).answers net i event next) :
    Dated next (labels ++ [some (i, event)]) := by
  obtain ⟨interface, rfl, h_attach⟩ | ⟨bytes, rfl, h_put⟩ | ⟨packet, rfl, h_take⟩ | ⟨-, rfl⟩ :=
    answers_cases h_answers
  · exact h.attach h_accounts h_attach
  · -- what is written or read leaves the place of the socket as it is
    obtain ⟨e, h_e, rfl⟩ := Network.put_eq_some_iff.mp h_put
    exact h.answer h_accounts rfl (exists_since_set h_e rfl)
  · obtain ⟨e, inbox, h_e, -, rfl⟩ := Network.take_eq_some_iff.mp h_take
    exact h.answer h_accounts rfl (exists_since_set h_e rfl)
  · exact h.answer h_accounts rfl fun j e h_e => ⟨e, h_e, rfl⟩

/-- **The places are kept** by every frame that is sent. -/
theorem Dated.deliver (h : Dated net labels) (h_accounts : Accounts accepts net labels) {i : ι}
    {loses : ι → Bool} (h_deliver : net.deliver accepts loses i = some next) :
    Dated next (labels ++ [none]) := by
  obtain ⟨e, message, outbox, h_e, -, rfl⟩ := Network.deliver_eq_some_iff.mp h_deliver
  refine ⟨?_, fun j f h_f => ?_⟩
  · -- one more was sent, and the log is one longer
    rw [sends_snoc]
    show (net.log ++ [_]).length = _
    rw [List.length_append, h.length]
    rfl
  · -- hearing a packet leaves the place of a socket as it is
    obtain ⟨before, h_before, rfl⟩ := Option.map_eq_some_iff.mp h_f
    obtain ⟨inbox, lost, h_hear⟩ :=
      Network.hear_eq accepts { origin := i, group := e.group, message } loses j before
    have h_same := @exists_since_set _ _ net i e { e with outbox } h_e rfl
    obtain ⟨old, h_old, h_since⟩ := h_same j before h_before
    rw [h_hear, joined_snoc_old (h_accounts.opened_ne_nil h_old), ← h.since j old h_old]
    exact h_since.symm

/-- **Every run keeps the places.** -/
theorem run_dated
    {c c' : Config ι (Net ι) Syscall.Answer (Program.Fault (CommandError ε δ)) Unit}
    (h : Run (environment accepts) c labels c') (h_start : c.world = Network.empty) :
    Dated c'.world labels := by
  -- the accounts say which sockets are open
  have h_both : Accounts accepts c'.world labels ∧ Dated c'.world labels := by
    induction h with
    | refl =>
      rw [h_start]
      exact ⟨accounts_empty, dated_empty⟩
    | snoc _ h_step ih =>
      obtain ⟨h_accounts, h_dated⟩ := ih
      cases h_step with
      | answer _ h_answers =>
        exact ⟨h_accounts.answers h_answers, h_dated.answers h_accounts h_answers⟩
      | move h_move =>
        obtain ⟨i, loses, h_deliver⟩ := h_move
        exact ⟨h_accounts.deliver h_deliver, h_dated.deliver h_accounts h_deliver⟩
  exact h_both.2

end

end Cantools.Cli
