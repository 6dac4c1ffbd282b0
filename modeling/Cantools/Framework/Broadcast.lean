import Mathlib.Algebra.BigOperators.Group.Finset.Piecewise
import Mathlib.Data.List.Basic
import Mathlib.Logic.Function.Basic

/-!
# Broadcast networks

Endpoints are attached to groups (a wire, a channel, a room). What an endpoint puts waits in its
outbox until it is delivered, one message after the other, to all other endpoints of the group, if
it is one of the messages that endpoints accept. An endpoint may lose a packet; the others wait in
its inbox until they are taken.

The network keeps a log of what was delivered. Every endpoint sees the same log (`Sound`): what it
has taken, and what waits for it, is a subsequence of the accepted packets of its group since it
was attached, and all of them if none was lost; and what the log has of one origin is what was put
there, in order, but for what still waits in its outbox.
-/

namespace Broadcast

variable {ι Group Message : Type}

/-- A message on the network. -/
structure Packet (ι Group Message : Type) where
  origin : ι
  group : Group
  message : Message
  deriving DecidableEq

structure Endpoint (ι Group Message : Type) where
  group : Group
  /-- What was put and not delivered yet. -/
  outbox : List Message
  /-- What was delivered and not taken yet. -/
  inbox : List (Packet ι Group Message)
  /-- What was put, so far. -/
  posted : List Message
  /-- What was taken, so far. -/
  taken : List (Packet ι Group Message)
  /-- The length of the log when the endpoint was attached. -/
  since : ℕ
  /-- How many packets it lost, so far. -/
  lost : ℕ

/-- What was done at an endpoint, so far. -/
structure History (ι Group Message : Type) where
  attached : List Group
  posted : List Message
  taken : List (Packet ι Group Message)

def Endpoint.history (e : Endpoint ι Group Message) : History ι Group Message where
  attached := [e.group]
  posted := e.posted
  taken := e.taken

structure Network (ι Group Message : Type) where
  endpoint : ι → Option (Endpoint ι Group Message)
  /-- What was delivered, so far. -/
  log : List (Packet ι Group Message)

namespace Network

/-- Without endpoints. -/
def empty : Network ι Group Message where
  endpoint _ := none
  log := []

variable [DecidableEq ι]

/-- Another content of an endpoint. -/
def set (n : Network ι Group Message) (i : ι) (e : Endpoint ι Group Message) :
    Network ι Group Message where
  endpoint := Function.update n.endpoint i (some e)
  log := n.log

@[simp] theorem set_log (n : Network ι Group Message) (i : ι) (e : Endpoint ι Group Message) :
    (n.set i e).log = n.log := rfl

@[simp] theorem set_self (n : Network ι Group Message) (i : ι) (e : Endpoint ι Group Message) :
    (n.set i e).endpoint i = some e := Function.update_self ..

theorem set_other (n : Network ι Group Message) {i j : ι} (h : j ≠ i)
    (e : Endpoint ι Group Message) : (n.set i e).endpoint j = n.endpoint j :=
  Function.update_of_ne h ..

/-! ### Operations -/

/-- A new endpoint. -/
def attach (n : Network ι Group Message) (i : ι) (group : Group) :
    Option (Network ι Group Message) :=
  match n.endpoint i with
  | some _ => none
  | none => some (n.set i
      { group, outbox := [], inbox := [], posted := [], taken := [], since := n.log.length
        lost := 0 })

def put (n : Network ι Group Message) (i : ι) (message : Message) :
    Option (Network ι Group Message) :=
  (n.endpoint i).map fun e =>
    n.set i { e with outbox := e.outbox ++ [message], posted := e.posted ++ [message] }

def take (n : Network ι Group Message) (i : ι) :
    Option (Packet ι Group Message × Network ι Group Message) :=
  match n.endpoint i with
  | none => none
  | some e =>
    match e.inbox with
    | [] => none
    | packet :: inbox => some (packet, n.set i { e with inbox, taken := e.taken ++ [packet] })

section Cases

variable {n n' : Network ι Group Message} {i : ι}

theorem attach_eq_some_iff {group : Group} : n.attach i group = some n' ↔
    n.endpoint i = none ∧ n' = n.set i
      { group, outbox := [], inbox := [], posted := [], taken := [], since := n.log.length
        lost := 0 } := by
  rw [attach]
  cases n.endpoint i with
  | none => exact ⟨fun h => ⟨rfl, (Option.some.inj h).symm⟩, fun h => congrArg some h.2.symm⟩
  | some e => exact ⟨fun h => (nomatch h), fun h => (nomatch h.1)⟩

theorem put_eq_some_iff {message : Message} : n.put i message = some n' ↔
    ∃ e, n.endpoint i = some e ∧ n' = n.set i
      { e with outbox := e.outbox ++ [message], posted := e.posted ++ [message] } := by
  rw [put, Option.map_eq_some_iff]
  exact exists_congr fun e => and_congr_right fun _ => eq_comm

theorem take_eq_some_iff {packet : Packet ι Group Message} : n.take i = some (packet, n') ↔
    ∃ e inbox, n.endpoint i = some e ∧ e.inbox = packet :: inbox ∧
      n' = n.set i { e with inbox, taken := e.taken ++ [packet] } := by
  rw [take]
  constructor
  · intro h
    -- there must be an endpoint, and a packet in its inbox
    cases h_e : n.endpoint i with
    | none =>
      rw [h_e] at h
      cases h
    | some e =>
      rw [h_e] at h
      cases h_inbox : e.inbox with
      | nil =>
        simp only [h_inbox] at h
        cases h
      | cons first inbox =>
        simp only [h_inbox] at h
        cases h
        exact ⟨e, inbox, rfl, h_inbox, rfl⟩
  · rintro ⟨e, inbox, h_e, h_inbox, rfl⟩
    simp only [h_e, h_inbox]

end Cases

variable [DecidableEq Group]

section Delivery

variable (accepts : Message → Bool)

/-- The packet is for this endpoint. -/
def For (packet : Packet ι Group Message) (j : ι) (e : Endpoint ι Group Message) : Prop :=
  packet.group = e.group ∧ packet.origin ≠ j ∧ accepts packet.message

instance (packet : Packet ι Group Message) (j : ι) (e : Endpoint ι Group Message) :
    Decidable (For accepts packet j e) := inferInstanceAs (Decidable (_ ∧ _))

/-- A packet at an endpoint, which may lose it. -/
def hear (packet : Packet ι Group Message) (loses : ι → Bool) (j : ι)
    (e : Endpoint ι Group Message) : Endpoint ι Group Message :=
  if For accepts packet j e then
    if loses j then { e with lost := e.lost + 1 } else { e with inbox := e.inbox ++ [packet] }
  else e

/-- A packet on the network. -/
def broadcast (n : Network ι Group Message) (packet : Packet ι Group Message) (loses : ι → Bool) :
    Network ι Group Message where
  endpoint j := (n.endpoint j).map (hear accepts packet loses j)
  log := n.log ++ [packet]

/-- The next message of an endpoint is delivered. -/
def deliver (n : Network ι Group Message) (loses : ι → Bool) (i : ι) :
    Option (Network ι Group Message) :=
  match n.endpoint i with
  | none => none
  | some e =>
    match e.outbox with
    | [] => none
    | message :: outbox =>
      some ((n.set i { e with outbox }).broadcast accepts
        { origin := i, group := e.group, message } loses)

end Delivery

variable {accepts : Message → Bool}

theorem deliver_eq_some_iff {n n' : Network ι Group Message} {i : ι} {loses : ι → Bool} :
    n.deliver accepts loses i = some n' ↔
      ∃ e message outbox, n.endpoint i = some e ∧ e.outbox = message :: outbox ∧
        n' = (n.set i { e with outbox }).broadcast accepts
          { origin := i, group := e.group, message } loses := by
  rw [deliver]
  constructor
  · intro h
    -- there must be an endpoint, and a message in its outbox
    cases h_e : n.endpoint i with
    | none =>
      rw [h_e] at h
      cases h
    | some e =>
      rw [h_e] at h
      cases h_outbox : e.outbox with
      | nil =>
        simp only [h_outbox] at h
        cases h
      | cons message outbox =>
        simp only [h_outbox] at h
        cases h
        exact ⟨e, message, outbox, rfl, h_outbox, rfl⟩
  · rintro ⟨e, message, outbox, h_e, h_outbox, rfl⟩
    simp only [h_e, h_outbox]

section Hear

variable {n : Network ι Group Message} {packet : Packet ι Group Message} {loses : ι → Bool} {j : ι}

theorem broadcast_none (h : n.endpoint j = none) :
    (n.broadcast accepts packet loses).endpoint j = none := congrArg (Option.map _) h

theorem broadcast_some {e : Endpoint ι Group Message} (h : n.endpoint j = some e) :
    (n.broadcast accepts packet loses).endpoint j = some (hear accepts packet loses j e) :=
  congrArg (Option.map _) h

/-- A packet is put into the inbox, or counted as lost. -/
theorem hear_eq (accepts : Message → Bool) (packet : Packet ι Group Message) (loses : ι → Bool)
    (j : ι) (e : Endpoint ι Group Message) :
    ∃ inbox lost, hear accepts packet loses j e = { e with inbox, lost } := by
  rw [hear]
  split
  · split
    · exact ⟨_, _, rfl⟩
    · exact ⟨_, _, rfl⟩
  · exact ⟨_, _, rfl⟩

end Hear

/-! ### What an endpoint has to do with the log -/

/-- The messages of an origin. -/
def sentBy (log : List (Packet ι Group Message)) (i : ι) : List Message :=
  (log.filter fun packet => packet.origin = i).map Packet.message

/-- The accepted packets of a group from here on, but for those of one origin. -/
def passed (accepts : Message → Bool) (log : List (Packet ι Group Message)) (since : ℕ)
    (group : Group) (j : ι) : List (Packet ι Group Message) :=
  (log.drop since).filter fun packet =>
    packet.group = group ∧ packet.origin ≠ j ∧ accepts packet.message

/-- The packets for an endpoint, since it was attached. -/
def heardBy (accepts : Message → Bool) (log : List (Packet ι Group Message)) (j : ι)
    (e : Endpoint ι Group Message) : List (Packet ι Group Message) :=
  passed accepts log e.since e.group j

omit [DecidableEq Group] in
/-- One packet more. -/
theorem sentBy_snoc (log : List (Packet ι Group Message)) (packet : Packet ι Group Message)
    (i : ι) : sentBy (log ++ [packet]) i
      = sentBy log i ++ if packet.origin = i then [packet.message] else [] := by
  rw [sentBy, List.filter_append, List.map_append, ← sentBy, List.filter_singleton]
  by_cases h : packet.origin = i
  · simp [h]
  · simp [h]

@[inherit_doc sentBy_snoc]
theorem heardBy_snoc {log : List (Packet ι Group Message)} {i : ι} {e : Endpoint ι Group Message}
    (h : e.since ≤ log.length) (packet : Packet ι Group Message) :
    heardBy accepts (log ++ [packet]) i e
      = heardBy accepts log i e ++ if For accepts packet i e then [packet] else [] := by
  rw [heardBy, passed, List.drop_append_of_le_length h, List.filter_append, ← passed, ← heardBy,
    List.filter_singleton]
  by_cases h_for : For accepts packet i e
  · have h_some : decide (packet.group = e.group ∧ packet.origin ≠ i ∧ accepts packet.message)
        = true := decide_eq_true h_for
    rw [if_pos h_for, h_some]
    rfl
  · have h_none : decide (packet.group = e.group ∧ packet.origin ≠ i ∧ accepts packet.message)
        = false := decide_eq_false h_for
    rw [if_neg h_for, h_none]
    rfl

/-- An endpoint and the log. -/
structure Follows (accepts : Message → Bool) (log : List (Packet ι Group Message)) (i : ι)
    (e : Endpoint ι Group Message) : Prop where
  posted : sentBy log i ++ e.outbox = e.posted
  group : ∀ packet ∈ log, packet.origin = i → packet.group = e.group
  since : e.since ≤ log.length
  order : (e.taken ++ e.inbox).Sublist (heardBy accepts log i e)
  exact : e.lost = 0 → e.taken ++ e.inbox = heardBy accepts log i e

/-- Every endpoint follows the log, which has nothing of others. -/
structure Sound (accepts : Message → Bool) (n : Network ι Group Message) : Prop where
  attached : ∀ i e, n.endpoint i = some e → Follows accepts n.log i e
  absent : ∀ i, n.endpoint i = none → ∀ packet ∈ n.log, packet.origin ≠ i

theorem sound_empty : Sound accepts (empty : Network ι Group Message) where
  attached _ _ h := nomatch h
  absent _ _ _ h := nomatch h

variable {n n' : Network ι Group Message} {i : ι}

/-- One endpoint may change, if it still follows the log. -/
theorem Sound.set (h : n.Sound accepts) {e : Endpoint ι Group Message}
    (h_e : Follows accepts n.log i e) : (n.set i e).Sound accepts where
  attached j e' h_j := by
    by_cases h_i : j = i
    · -- the endpoint that was set
      subst h_i
      rw [set_self] at h_j
      cases h_j
      exact h_e
    · rw [set_other n h_i] at h_j
      exact h.attached j e' h_j
  absent j h_j := by
    by_cases h_i : j = i
    · subst h_i
      rw [set_self] at h_j
      cases h_j
    · rw [set_other n h_i] at h_j
      exact h.absent j h_j

theorem Sound.attach (h : n.Sound accepts) {group : Group} (h_attach : n.attach i group = some n') :
    n'.Sound accepts := by
  obtain ⟨h_none, rfl⟩ := attach_eq_some_iff.mp h_attach
  have h_absent := h.absent i h_none
  refine h.set ⟨?_, fun packet h_packet h_origin => absurd h_origin (h_absent packet h_packet),
    le_rfl, ?_, fun _ => ?_⟩
  · rw [List.append_nil, sentBy, List.filter_eq_nil_iff.mpr (by simpa using h_absent), List.map_nil]
  · exact List.nil_sublist _
  · rw [heardBy, passed, List.drop_length]
    rfl

theorem Sound.put (h : n.Sound accepts) {message : Message} (h_put : n.put i message = some n') :
    n'.Sound accepts := by
  obtain ⟨e, h_e, rfl⟩ := put_eq_some_iff.mp h_put
  have h_i := h.attached i e h_e
  refine h.set ⟨?_, h_i.group, h_i.since, h_i.order, h_i.exact⟩
  rw [← List.append_assoc, h_i.posted]

theorem Sound.take (h : n.Sound accepts) {packet : Packet ι Group Message}
    (h_take : n.take i = some (packet, n')) : n'.Sound accepts := by
  obtain ⟨e, inbox, h_e, h_inbox, rfl⟩ := take_eq_some_iff.mp h_take
  have h_i := h.attached i e h_e
  have h_same : (e.taken ++ [packet]) ++ inbox = e.taken ++ e.inbox := by
    rw [h_inbox, List.append_assoc, List.singleton_append]
  exact h.set ⟨h_i.posted, h_i.group, h_i.since, h_same ▸ h_i.order, fun h_lost =>
    h_same.trans (h_i.exact h_lost)⟩

/-- An endpoint that follows the log, but for the packet that comes next, does so behind it. -/
theorem Follows.hear {log : List (Packet ι Group Message)} {packet : Packet ι Group Message}
    {e : Endpoint ι Group Message} (h : Follows accepts log i e) (loses : ι → Bool)
    (h_origin : packet.origin ≠ i) :
    Follows accepts (log ++ [packet]) i (hear accepts packet loses i e) := by
  have h_sent : sentBy (log ++ [packet]) i = sentBy log i := by
    rw [sentBy_snoc, if_neg h_origin, List.append_nil]
  -- what was sent from here is as before
  have h_group : ∀ p ∈ log ++ [packet], p.origin = i → p.group = e.group := by
    intro p h_p h_i
    rcases List.mem_append.mp h_p with h_p | h_p
    · exact h.group p h_p h_i
    · exact absurd (List.mem_singleton.mp h_p ▸ h_i) h_origin
  have h_since : e.since ≤ (log ++ [packet]).length := by
    rw [List.length_append]
    exact Nat.le_add_right_of_le h.since
  have h_heard : heardBy accepts (log ++ [packet]) i e = _ := heardBy_snoc h.since packet
  rw [Network.hear]
  by_cases h_for : For accepts packet i e
  · rw [if_pos h_for] at h_heard ⊢
    cases loses i with
    | true =>
      -- the packet is lost, and the rest is still in order
      refine ⟨h_sent ▸ h.posted, h_group, h_since, ?_, fun h_lost => nomatch h_lost⟩
      show (e.taken ++ e.inbox).Sublist (heardBy accepts (log ++ [packet]) i e)
      rw [h_heard]
      exact h.order.trans (List.sublist_append_left ..)
    | false =>
      refine ⟨h_sent ▸ h.posted, h_group, h_since, ?_, fun h_lost => ?_⟩
      · show (e.taken ++ (e.inbox ++ [packet])).Sublist (heardBy accepts (log ++ [packet]) i e)
        rw [h_heard, ← List.append_assoc]
        exact h.order.append (List.Sublist.refl _)
      · show e.taken ++ (e.inbox ++ [packet]) = heardBy accepts (log ++ [packet]) i e
        rw [h_heard, ← List.append_assoc, h.exact h_lost]
  · -- the packet is for others
    rw [if_neg h_for, List.append_nil] at h_heard
    rw [if_neg h_for]
    exact ⟨h_sent ▸ h.posted, h_group, h_since, h_heard ▸ h.order, fun h_lost =>
      h_heard ▸ h.exact h_lost⟩

/-- The endpoint whose message is delivered. -/
theorem Follows.sent {log : List (Packet ι Group Message)} {e : Endpoint ι Group Message}
    {message : Message} {outbox : List Message} (h : Follows accepts log i e)
    (h_outbox : e.outbox = message :: outbox) :
    Follows accepts (log ++ [{ origin := i, group := e.group, message }]) i
      { e with outbox } := by
  -- nobody hears itself
  have h_heard : heardBy accepts (log ++ [{ origin := i, group := e.group, message }]) i e
      = heardBy accepts log i e := by
    rw [heardBy_snoc h.since, if_neg fun h_for => h_for.2.1 rfl, List.append_nil]
  refine ⟨?_, fun packet h_packet h_origin => ?_, ?_, h_heard.symm ▸ h.order, fun h_lost =>
    (h.exact h_lost).trans h_heard.symm⟩
  · rw [sentBy_snoc, if_pos rfl, List.append_assoc, List.singleton_append, ← h_outbox, h.posted]
  · rcases List.mem_append.mp h_packet with h_packet | h_packet
    · exact h.group packet h_packet h_origin
    · rw [List.mem_singleton.mp h_packet]
  · rw [List.length_append]
    exact Nat.le_add_right_of_le h.since

/-- **A delivery** keeps every endpoint with the log. -/
theorem Sound.deliver (h : n.Sound accepts) {loses : ι → Bool} 
    (h_deliver : n.deliver accepts loses i = some n') :
    n'.Sound accepts := by
  obtain ⟨e, message, outbox, h_e, h_outbox, rfl⟩ := deliver_eq_some_iff.mp h_deliver
  constructor
  · intro j e' h_j
    obtain ⟨before, h_before, rfl⟩ := Option.map_eq_some_iff.mp h_j
    by_cases h_i : j = i
    · subst h_i
      rw [set_self] at h_before
      cases h_before
      rw [Network.hear, if_neg fun h_for => h_for.2.1 rfl]
      -- the origin has one message less in its outbox, and one more on the log
      exact (h.attached j e h_e).sent h_outbox
    · rw [set_other n h_i] at h_before
      exact (h.attached j before h_before).hear loses (Ne.symm h_i)
  · -- a packet on the log is from an endpoint
    intro j h_j packet h_packet
    have h_before := Option.map_eq_none_iff.mp h_j
    by_cases h_i : j = i
    · subst h_i
      rw [set_self] at h_before
      cases h_before
    · rw [set_other n h_i] at h_before
      rcases List.mem_append.mp h_packet with h_packet | h_packet
      · exact h.absent j h_before packet h_packet
      · rw [List.mem_singleton.mp h_packet]
        exact Ne.symm h_i

/-! ### Histories -/

def history (n : Network ι Group Message) (i : ι) : History ι Group Message :=
  (n.endpoint i).elim ⟨[], [], []⟩ Endpoint.history

section History

omit [DecidableEq ι] [DecidableEq Group] in
theorem history_none {n : Network ι Group Message} {i : ι} (h : n.endpoint i = none) :
    n.history i = ⟨[], [], []⟩ := by rw [history, h, Option.elim_none]

omit [DecidableEq ι] [DecidableEq Group] in
theorem history_some {n : Network ι Group Message} {i : ι} {e : Endpoint ι Group Message}
    (h : n.endpoint i = some e) : n.history i = e.history := by rw [history, h, Option.elim_some]

omit [DecidableEq Group]

theorem history_set (n : Network ι Group Message) (i : ι) (e : Endpoint ι Group Message) :
    (n.set i e).history = Function.update n.history i e.history := by
  funext j
  by_cases h : j = i
  · subst h
    rw [history_some (set_self ..), Function.update_self]
  · rw [history, set_other n h, Function.update_of_ne h, history]

theorem history_attach {group : Group} (h : n.attach i group = some n') :
    n.history i = ⟨[], [], []⟩ ∧ n'.history = Function.update n.history i ⟨[group], [], []⟩ := by
  obtain ⟨h_none, rfl⟩ := attach_eq_some_iff.mp h
  exact ⟨history_none h_none, history_set ..⟩

theorem history_put {message : Message} (h : n.put i message = some n') :
    n'.history = Function.update n.history i
      { n.history i with posted := (n.history i).posted ++ [message] } := by
  obtain ⟨e, h_e, rfl⟩ := put_eq_some_iff.mp h
  rw [history_set, history_some h_e]
  rfl

theorem history_take {packet : Packet ι Group Message} (h : n.take i = some (packet, n')) :
    n'.history = Function.update n.history i
      { n.history i with taken := (n.history i).taken ++ [packet] } := by
  obtain ⟨e, inbox, h_e, -, rfl⟩ := take_eq_some_iff.mp h
  rw [history_set, history_some h_e]
  rfl

end History

/-- A delivery is in no history. -/
theorem history_deliver {loses : ι → Bool} (h : n.deliver accepts loses i = some n') :
    n'.history = n.history := by
  obtain ⟨e, message, outbox, h_e, -, rfl⟩ := deliver_eq_some_iff.mp h
  -- the sender has posted the packet before, so its history has it
  have h_set : (n.set i { e with outbox }).history = n.history := by
    rw [history_set]
    exact Function.update_eq_self_iff.mpr (history_some h_e).symm
  rw [← h_set]
  -- and what is heard is no part of a history until it is taken
  funext j
  cases h_j : (n.set i { e with outbox }).endpoint j with
  | none => rw [history_none h_j, history_none (broadcast_none h_j)]
  | some before =>
    rw [history_some h_j, history_some (broadcast_some h_j)]
    obtain ⟨inbox, lost, h_hear⟩ :=
      hear_eq accepts { origin := i, group := e.group, message } loses j before
    rw [h_hear]
    rfl

/-! ### Messages that wait -/

/-- How many messages wait at an endpoint. -/
def waiting (n : Network ι Group Message) (i : ι) : ℕ :=
  (n.endpoint i).elim 0 fun e => e.outbox.length

omit [DecidableEq ι] [DecidableEq Group] in
theorem waiting_none {n : Network ι Group Message} {i : ι} (h : n.endpoint i = none) :
    n.waiting i = 0 := by rw [waiting, h, Option.elim_none]

omit [DecidableEq ι] [DecidableEq Group] in
theorem waiting_some {n : Network ι Group Message} {i : ι} {e : Endpoint ι Group Message}
    (h : n.endpoint i = some e) : n.waiting i = e.outbox.length := by
  rw [waiting, h, Option.elim_some]

/-- How many messages wait to be delivered. -/
def queued [Fintype ι] (n : Network ι Group Message) : ℕ := ∑ i, n.waiting i

section Queued

omit [DecidableEq Group]

theorem waiting_set (n : Network ι Group Message) (i : ι) (e : Endpoint ι Group Message) :
    (n.set i e).waiting = Function.update n.waiting i e.outbox.length := by
  funext j
  by_cases h : j = i
  · subst h
    rw [waiting_some (set_self ..), Function.update_self]
  · rw [waiting, set_other n h, Function.update_of_ne h, waiting]

variable [Fintype ι]

/-- What waits at one endpoint counts for itself. -/
theorem queued_set (n : Network ι Group Message) (i : ι) (e : Endpoint ι Group Message) :
    (n.set i e).queued + n.waiting i = n.queued + e.outbox.length := by
  rw [queued, waiting_set, Finset.sum_update_of_mem (Finset.mem_univ i), ← Finset.erase_eq, queued,
    ← Finset.add_sum_erase _ n.waiting (Finset.mem_univ i)]
  omega

theorem queued_attach {group : Group} (h : n.attach i group = some n') :
    n'.queued = n.queued := by
  obtain ⟨h_none, rfl⟩ := attach_eq_some_iff.mp h
  have h_set := queued_set n i { group, outbox := [], inbox := [], posted := [], taken := []
                                 since := n.log.length, lost := 0 }
  rw [waiting_none h_none] at h_set
  exact h_set

theorem queued_put {message : Message} (h : n.put i message = some n') :
    n'.queued = n.queued + 1 := by
  obtain ⟨e, h_e, rfl⟩ := put_eq_some_iff.mp h
  have h_set := queued_set n i
    { e with outbox := e.outbox ++ [message], posted := e.posted ++ [message] }
  rw [waiting_some h_e, List.length_append, List.length_singleton] at h_set
  omega

theorem queued_take {packet : Packet ι Group Message} (h : n.take i = some (packet, n')) :
    n'.queued = n.queued := by
  obtain ⟨e, inbox, h_e, -, rfl⟩ := take_eq_some_iff.mp h
  have h_set := queued_set n i { e with inbox, taken := e.taken ++ [packet] }
  rw [waiting_some h_e] at h_set
  exact Nat.add_right_cancel h_set

end Queued

/-- Hearing a packet changes no outbox. -/
theorem queued_broadcast [Fintype ι] (accepts : Message → Bool) (n : Network ι Group Message)
    (packet : Packet ι Group Message) (loses : ι → Bool) :
    (n.broadcast accepts packet loses).queued = n.queued := by
  refine Finset.sum_congr rfl fun j _ => ?_
  cases h_j : n.endpoint j with
  | none => rw [waiting_none h_j, waiting_none (broadcast_none h_j)]
  | some e =>
    obtain ⟨inbox, lost, h_hear⟩ := hear_eq accepts packet loses j e
    rw [waiting_some h_j, waiting_some (broadcast_some h_j), h_hear]

/-- A delivery takes one message off. -/
theorem queued_deliver [Fintype ι] {loses : ι → Bool} (h : n.deliver accepts loses i = some n') :
    n'.queued < n.queued := by
  obtain ⟨e, message, outbox, h_e, h_outbox, rfl⟩ := deliver_eq_some_iff.mp h
  have h_set : _ = n.queued + outbox.length := queued_set n i { e with outbox }
  rw [waiting_some h_e, h_outbox, List.length_cons] at h_set
  rw [queued_broadcast]
  omega

end Network

/-! ### Messages that stand for others -/

section Encoded

variable {Value : Type} (f : Value → Message)

/-- A packet with its message encoded. -/
def Packet.encode (packet : Packet ι Group Value) : Packet ι Group Message where
  origin := packet.origin
  group := packet.group
  message := f packet.message

variable [DecidableEq ι]

theorem Network.sentBy_encode (values : List (Packet ι Group Value)) (i : ι) :
    sentBy (values.map (Packet.encode f)) i = (sentBy values i).map f := by
  rw [sentBy, sentBy, List.filter_map, List.map_map, List.map_map]
  rfl

theorem Network.passed_encode [DecidableEq Group] (accepts : Message → Bool)
    (values : List (Packet ι Group Value)) (since : ℕ) (group : Group) (j : ι) :
    passed accepts (values.map (Packet.encode f)) since group j
      = (passed (accepts ∘ f) values since group j).map (Packet.encode f) := by
  rw [passed, passed, ← List.map_drop, List.filter_map]
  rfl

variable {f}

/-- **A log of encoded messages** has a log of what they stand for, if every origin encodes what it
sends. -/
theorem Network.exists_values {messages : ι → List Value} {log : List (Packet ι Group Message)}
    (h : ∀ i, sentBy log i <+: (messages i).map f) :
    ∃ values : List (Packet ι Group Value), values.map (Packet.encode f) = log ∧
      ∀ i, sentBy values i <+: messages i := by
  induction log using List.reverseRecOn with
  | nil => exact ⟨[], rfl, fun i => List.nil_prefix⟩
  | append_singleton log packet ih =>
    obtain ⟨values, rfl, h_values⟩ := ih fun i => by
      have h_i := h i
      rw [sentBy_snoc] at h_i
      exact (List.prefix_append ..).trans h_i
    -- the next value of this origin stands for the packet
    obtain ⟨rest, h_rest⟩ := h_values packet.origin
    have h_next := h packet.origin
    rw [sentBy_snoc, if_pos rfl, sentBy_encode, ← h_rest, List.map_append,
      List.prefix_append_right_inj] at h_next
    obtain ⟨value, rest', rfl, h_value⟩ : ∃ value rest', rest = value :: rest' ∧
        f value = packet.message := by
      cases rest with
      | nil => exact absurd h_next.length_le (by simp)
      | cons value rest' => exact ⟨value, rest', rfl, (List.cons_prefix_cons.mp h_next).1.symm⟩
    refine ⟨values ++ [{ origin := packet.origin, group := packet.group, message := value }], ?_,
      fun i => ?_⟩
    · rw [List.map_append, List.map_singleton, Packet.encode, h_value]
    · rw [sentBy_snoc]
      by_cases h_i : packet.origin = i
      · subst h_i
        rw [if_pos rfl, ← h_rest, List.prefix_append_right_inj]
        exact ⟨rest', rfl⟩
      · rw [if_neg h_i, List.append_nil]
        exact h_values i

end Encoded

end Broadcast
