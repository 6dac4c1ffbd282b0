import Cantools.Framework.Transducer
import Cantools.Uds.Response

/-!
# The UDS client

`Client::send` encodes a request, has the transport answer it and decodes the answer. The
transport is a parameter: `call` has the answer to the bytes of a request, or an error, and the
next state of the transport, so that an answer may depend on everything that was sent before, and
may be anything.

A run of requests through one client is `Transducer.outputs` of `send`. The client keeps nothing
but the transport, so each result is what the decoder makes of the transport's answer to that
request (`results_eq`). It compares the service of the answer with none: matching answers to
requests is left to the transport, whose `call` is documented to wait for the corresponding
response. `Exchanged` says what a result is in terms of the bytes that were answered.
-/

namespace Cantools.Uds

open Program Transducer

/-- What `send` returns in a box: an error of the transport, or of the codec. -/
inductive SendError (ε : Type) where
  | transport (error : ε)
  | uds (error : UdsError)
  deriving DecidableEq, Repr

/-- Client-first UDS helper. -/
structure Client (σ : Type) where
  transport : σ
  deriving DecidableEq, Repr

section Send

variable {σ ε : Type} (call : σ → List UInt8 → Except ε (List UInt8) × σ)

/-- What is returned for the answer of the transport. -/
def received (reply : Except ε (List UInt8)) : Except (SendError ε) Response := do
  let payload ← reply.mapError .transport
  (decodeResponse payload).mapError .uds

/-- Execute a request and decode the resulting UDS response. -/
def Client.send (client : Client σ) (request : Request) :
    Except (SendError ε) Response × Client σ :=
  let (reply, transport) := call client.transport request.encode
  (received reply, { client with transport })

/-- The results of requests that are sent one after the other. -/
def results (transport : σ) (requests : List Request) : List (Except (SendError ε) Response) :=
  outputs (Client.send call) ⟨transport⟩ requests

/-- The answers of the transport to the same requests. -/
def replies (transport : σ) (requests : List Request) : List (Except ε (List UInt8)) :=
  outputs call transport (requests.map Request.encode)

/-- **A run.** Each result is made of the answer to the same request alone. -/
theorem results_eq (transport : σ) (requests : List Request) :
    results call transport requests = (replies call transport requests).map received := by
  -- the client is the transport behind the two translations
  have h_out : ∀ (client : Client σ) (s : σ) (request : Request), client.transport = s →
      (Client.send call client request).1 = (wrap Request.encode received call s request).1 := by
    rintro client s request rfl
    rfl
  have h_step : ∀ (client : Client σ) (s : σ) (request : Request), client.transport = s →
      (Client.send call client request).2.transport
        = (wrap Request.encode received call s request).2 := by
    rintro client s request rfl
    rfl
  calc results call transport requests
      = outputs (wrap Request.encode received call) transport requests :=
        outputs_eq_of_simulation h_out h_step rfl requests
    _ = (replies call transport requests).map received := outputs_wrap ..

end Send

/-! ### The service of an answer -/

/-- The bytes carry the identifier of this service: as a positive response does, or as a negative
one. -/
def Carries (service : ServiceId) (payload : List UInt8) : Prop :=
  payload.head? = some (service.toByte + 0x40) ∨ [0x7f, service.toByte] <+: payload

/-- The bytes are no negative response without a known code. -/
def Complete (payload : List UInt8) : Prop :=
  payload.head? = some 0x7f → ∃ code : NegativeResponseCode, payload[2]? = some code.toByte

theorem carries_positive {service service' : ServiceId} {data : List UInt8} :
    Carries service' ((service.toByte + 0x40) :: data) ↔ service = service' := by
  constructor
  · rintro (h_head | h_prefix)
    · exact ServiceId.toByte_injective ((UInt8.add_left_inj 0x40).mp (Option.some.inj h_head))
    · exact absurd (List.cons_prefix_cons.mp h_prefix).1.symm service.toByte_add_ne
  · rintro rfl
    exact .inl rfl

theorem carries_negative {service service' : ServiceId} {rest : List UInt8} :
    Carries service' (0x7f :: service.toByte :: rest) ↔ service = service' := by
  constructor
  · rintro (h_head | h_prefix)
    · exact absurd (Option.some.inj h_head).symm service'.toByte_add_ne
    · have h_tail := (List.cons_prefix_cons.mp h_prefix).2
      exact ServiceId.toByte_injective (List.cons_prefix_cons.mp h_tail).1.symm
  · rintro rfl
    exact .inr ⟨rest, rfl⟩

/-- **The service of a response** is the one that the bytes carry. -/
theorem carries_iff {payload : List UInt8} {response : Response}
    (h : decodeResponse payload = .ok response) (service : ServiceId) :
    Carries service payload ↔ response.service = service := by
  rcases decodeResponse_eq_ok_iff.mp h with ⟨positive | negative⟩ | ⟨negative, rest⟩
  · exact carries_positive
  · exact carries_negative
  · exact carries_negative

/-- Of the answers that carry a known service, the complete ones are decoded. -/
theorem exists_decodeResponse_iff {payload : List UInt8} {service : ServiceId}
    (h : Carries service payload) :
    (∃ response, decodeResponse payload = .ok response) ↔ Complete payload := by
  constructor
  · rintro ⟨response, h_decode⟩ h_head
    -- a negative response is decoded if its code is there
    rcases decodeResponse_eq_ok_iff.mp h_decode with ⟨positive | negative⟩ | ⟨negative, rest⟩
    · exact absurd (Option.some.inj h_head) positive.service.toByte_add_ne
    · exact ⟨negative.code, rfl⟩
    · exact ⟨negative.code, rfl⟩
  · intro h_complete
    -- a positive response needs no more than its head
    rcases h with h_head | ⟨rest, rfl⟩
    · obtain ⟨data, rfl⟩ := List.head?_eq_some_iff.mp h_head
      exact ⟨_, decodeResponse_eq_ok_iff.mpr (.encoded (.positive ⟨service, data⟩))⟩
    · obtain ⟨code, h_code⟩ := h_complete rfl
      obtain ⟨rest, rfl⟩ := List.head?_eq_some_iff.mp ((List.head?_eq_getElem?).trans h_code)
      exact ⟨_, decodeResponse_eq_ok_iff.mpr (.excess ⟨service, code⟩ rest)⟩

theorem received_eq_ok_iff {ε : Type} {reply : Except ε (List UInt8)} {response : Response} :
    received reply = .ok response ↔
      ∃ payload, reply = .ok payload ∧ decodeResponse payload = .ok response := by
  rw [received, bind_eq_ok_iff]
  simp only [mapError_eq_ok_iff]

/-! ### Runs -/

/-- What a request comes back with, in terms of the bytes that were answered to it. -/
structure Exchanged {ε : Type} (reply : Except ε (List UInt8))
    (result : Except (SendError ε) Response) : Prop where
  /-- A response names the service that the answer carries, and no other. -/
  named : ∀ response, result = .ok response →
    ∃ payload, reply = .ok payload ∧ ∀ service, Carries service payload ↔ response.service = service
  /-- An answer that carries a known service is an error only if it is incomplete. -/
  incomplete : ∀ payload service, reply = .ok payload → Carries service payload →
    ((∃ e, result = .error e) ↔ ¬ Complete payload)
  failed : ∀ e, reply = .error e → result = .error (.transport e)

theorem exchanged_received {ε : Type} (reply : Except ε (List UInt8)) :
    Exchanged reply (received reply) := by
  -- what is received, when it fails, and the error of the transport
  refine ⟨fun response h => ?_, fun payload service h_reply h_carries => ?_, ?_⟩
  · obtain ⟨payload, h_reply, h_decode⟩ := received_eq_ok_iff.mp h
    exact ⟨payload, h_reply, carries_iff h_decode⟩
  · subst h_reply
    rw [← exists_decodeResponse_iff h_carries]
    constructor
    · rintro ⟨e, h_error⟩ ⟨response, h_decode⟩
      rw [received_eq_ok_iff.mpr ⟨payload, rfl, h_decode⟩] at h_error
      cases h_error
    · intro h_none
      cases h_received : received (.ok payload : Except ε _) with
      | error e => exact ⟨e, rfl⟩
      | ok response =>
        obtain ⟨_, h_reply, h_decode⟩ := received_eq_ok_iff.mp h_received
        cases h_reply
        exact absurd ⟨response, h_decode⟩ h_none
  · rintro e rfl
    rfl

section Run

variable {σ ε : Type} (call : σ → List UInt8 → Except ε (List UInt8) × σ) (transport : σ)
variable (requests : List Request)

/-- Every response that is returned for a request names its service. -/
def Correlated : Prop :=
  ∀ (k : ℕ) (request : Request) (response : Response), requests[k]? = some request →
    (results call transport requests)[k]? = some (.ok response) →
      response.service = request.service

/-- The transport answers a request with no complete response for another service. -/
def Corresponding : Prop :=
  ∀ (k : ℕ) (request : Request) (payload : List UInt8) (service : ServiceId),
    requests[k]? = some request → (replies call transport requests)[k]? = some (.ok payload) →
      Carries service payload → Complete payload → service = request.service

variable {call transport requests}

theorem getElem?_results_iff {k : ℕ} {result : Except (SendError ε) Response} :
    (results call transport requests)[k]? = some result ↔
      ∃ reply, (replies call transport requests)[k]? = some reply ∧ received reply = result := by
  rw [results_eq, List.getElem?_map, Option.map_eq_some_iff]

/-- Every request is answered. -/
theorem exists_reply {k : ℕ} {request : Request} (h : requests[k]? = some request) :
    ∃ reply, (replies call transport requests)[k]? = some reply := by
  obtain ⟨h_lt, -⟩ := List.getElem?_eq_some_iff.mp h
  have h_length : (replies call transport requests).length = requests.length := by
    rw [replies, length_outputs, List.length_map]
  exact ⟨_, List.getElem?_eq_getElem (h_length ▸ h_lt)⟩

/-- **Correlation is the transport's.** -/
theorem correlated_iff_corresponding :
    Correlated call transport requests ↔ Corresponding call transport requests := by
  constructor
  · intro h k request payload service h_request h_reply h_carries h_complete
    obtain ⟨response, h_decode⟩ := (exists_decodeResponse_iff h_carries).mpr h_complete
    -- the answer is decoded, and is the result of this request
    have h_result := getElem?_results_iff.mpr
      ⟨_, h_reply, received_eq_ok_iff.mpr ⟨payload, rfl, h_decode⟩⟩
    exact ((carries_iff h_decode service).mp h_carries).symm.trans
      (h k request response h_request h_result)
  · intro h k request response h_request h_result
    -- the result was decoded from an answer, which carries its service
    obtain ⟨reply, h_reply, h_received⟩ := getElem?_results_iff.mp h_result
    obtain ⟨payload, rfl, h_decode⟩ := received_eq_ok_iff.mp h_received
    have h_carries := (carries_iff h_decode response.service).mpr rfl
    exact h k request payload response.service h_request h_reply h_carries
      ((exists_decodeResponse_iff h_carries).mp ⟨response, h_decode⟩)

end Run

/-- **Every run of a client**: each result is made of the answer to the same request and names the
service that this answer carries, so all responses belong to their requests exactly if the answers
do. -/
theorem results_exchanged {σ ε : Type} (call : σ → List UInt8 → Except ε (List UInt8) × σ)
    (transport : σ) (requests : List Request) :
    (∀ (k : ℕ) (request : Request), requests[k]? = some request → ∃ reply result,
      (replies call transport requests)[k]? = some reply ∧
        (results call transport requests)[k]? = some result ∧ Exchanged reply result) ∧
    (Correlated call transport requests ↔ Corresponding call transport requests) := by
  refine ⟨fun k request h_request => ?_, correlated_iff_corresponding⟩
  obtain ⟨reply, h_reply⟩ := exists_reply h_request
  exact ⟨reply, received reply, h_reply, getElem?_results_iff.mpr ⟨reply, h_reply, rfl⟩,
    exchanged_received reply⟩

/-- A transport that is one answer late: the request for a reset is answered with the response to
the tester-present request before it, and the client returns that. -/
theorem results_exchanged_counterexample :
    let late : List UInt8 → List UInt8 → Except String (List UInt8) × List UInt8 :=
      fun pending request =>
        (if pending.isEmpty then .error "timeout" else .ok pending,
          (request.headD 0 + 0x40) :: request.tail)
    let requests : List Request := [⟨.testerPresent, [0x00]⟩, ⟨.ecuReset, [0x01]⟩]
    results late [] requests
        = [.error (.transport "timeout"), .ok (.positive ⟨.testerPresent, [0x00]⟩)] ∧
      ¬ Correlated late [] requests := by
  intro late requests
  have h_results : results late [] requests
      = [.error (.transport "timeout"), .ok (.positive ⟨.testerPresent, [0x00]⟩)] := rfl
  refine ⟨h_results, fun h => ?_⟩
  have h_service := h 1 ⟨.ecuReset, [0x01]⟩ (.positive ⟨.testerPresent, [0x00]⟩) rfl
    (by rw [h_results]; rfl)
  exact absurd h_service (by decide)

end Cantools.Uds
