import Cantools.Framework.Machine

/-!
# UDS responses

The request and response types of `cantools-uds` and `decode_response`.

A positive response is its service identifier plus `0x40`, and data; a negative one is `0x7f`, the
identifier and a code. The source encodes requests only, so `Response.encode` is the encoding that
responses are meant to have. `decodeResponse` accepts this encoding, and behind that of a negative
response it accepts any further bytes (`decodeResponse_eq_ok_iff`): its length test has a lower
bound and no upper one. `HasExcess` are the byte strings that make the difference, and
`decodeResponse_exact_iff` says that without them decoding is exact.
-/

namespace Cantools.Uds

open Machine Program

/-! ### Types -/

/-- Common UDS service identifiers. -/
inductive ServiceId where
  /-- Diagnostic session control. -/
  | diagnosticSessionControl
  /-- ECU reset. -/
  | ecuReset
  /-- Read data by identifier. -/
  | readDataByIdentifier
  /-- Tester present. -/
  | testerPresent
  deriving DecidableEq, Repr

/-- `service as u8` -/
def ServiceId.toByte : ServiceId → UInt8
  | .diagnosticSessionControl => 0x10
  | .ecuReset => 0x11
  | .readDataByIdentifier => 0x22
  | .testerPresent => 0x3e

/-- Common negative response codes. -/
inductive NegativeResponseCode where
  /-- Request is not supported. -/
  | serviceNotSupported
  /-- Conditions not correct. -/
  | conditionsNotCorrect
  /-- Sub-function not supported. -/
  | subFunctionNotSupported
  deriving DecidableEq, Repr

/-- `code as u8` -/
def NegativeResponseCode.toByte : NegativeResponseCode → UInt8
  | .serviceNotSupported => 0x11
  | .conditionsNotCorrect => 0x22
  | .subFunctionNotSupported => 0x12

/-- Request body. -/
structure Request where
  service : ServiceId
  data : List UInt8
  deriving DecidableEq, Repr

/-- Encode the request into a payload. -/
def Request.encode (request : Request) : List UInt8 := request.service.toByte :: request.data

/-- Positive response body. -/
structure PositiveResponse where
  /-- Original service identifier. -/
  service : ServiceId
  data : List UInt8
  deriving DecidableEq, Repr

/-- Negative response body. -/
structure NegativeResponse where
  /-- Original service identifier. -/
  service : ServiceId
  code : NegativeResponseCode
  deriving DecidableEq, Repr

/-- Response envelope. -/
inductive Response where
  | positive (response : PositiveResponse)
  | negative (response : NegativeResponse)
  deriving DecidableEq, Repr

/-- UDS codec errors. -/
inductive UdsError where
  /-- The message was too short to decode. -/
  | payloadTooShort
  /-- The service identifier is not part of the bootstrap set. -/
  | unknownService (raw : UInt8)
  /-- The negative response code is not part of the bootstrap set. -/
  | unknownNegativeResponseCode (raw : UInt8)
  deriving DecidableEq, Repr

/-! ### Decoding -/

def decodeService (raw : UInt8) : Except UdsError ServiceId :=
  match raw with
  | 0x10 => .ok .diagnosticSessionControl
  | 0x11 => .ok .ecuReset
  | 0x22 => .ok .readDataByIdentifier
  | 0x3e => .ok .testerPresent
  | other => .error (.unknownService other)

def decodeNegativeResponseCode (raw : UInt8) : Except UdsError NegativeResponseCode :=
  match raw with
  | 0x11 => .ok .serviceNotSupported
  | 0x12 => .ok .subFunctionNotSupported
  | 0x22 => .ok .conditionsNotCorrect
  | other => .error (.unknownNegativeResponseCode other)

/-- Decode a raw UDS response payload. -/
def decodeResponse : List UInt8 → Except UdsError Response
  | [] => .error .payloadTooShort
  | first :: rest =>
    if first = 0x7f then
      match rest with
      | service :: code :: _ => do
        let service ← decodeService service
        let code ← decodeNegativeResponseCode code
        pure (.negative { service, code })
      | _ => .error .payloadTooShort
    else do
      let service ← decodeService (saturatingSub first 0x40)
      pure (.positive { service, data := rest })

/-! ### The encoding of a response -/

/-- The encoding of a response. -/
def Response.encode : Response → List UInt8
  | .positive response => (response.service.toByte + 0x40) :: response.data
  | .negative response => [0x7f, response.service.toByte, response.code.toByte]

/-- The service a response names. -/
def Response.service : Response → ServiceId
  | .positive response => response.service
  | .negative response => response.service

/-- The tables of `decode_service` and of the enumeration are inverse. -/
theorem decodeService_eq_ok_iff {raw : UInt8} {service : ServiceId} :
    decodeService raw = .ok service ↔ raw = service.toByte := by
  constructor
  · intro h
    unfold decodeService at h
    split at h <;> cases h <;> rfl
  · rintro rfl
    cases service <;> rfl

theorem ServiceId.toByte_injective : Function.Injective ServiceId.toByte := by
  intro service service' h
  have h_decode := decodeService_eq_ok_iff.mpr h
  rw [decodeService_eq_ok_iff.mpr rfl] at h_decode
  exact Except.ok.inj h_decode

theorem decodeNegativeResponseCode_eq_ok_iff {raw : UInt8} {code : NegativeResponseCode} :
    decodeNegativeResponseCode raw = .ok code ↔ raw = code.toByte := by
  constructor
  · intro h
    unfold decodeNegativeResponseCode at h
    split at h <;> cases h <;> rfl
  · rintro rfl
    cases code <;> rfl

/-- No identifier is `0`, and with `0x40` added none reaches `0x7f`. -/
theorem ServiceId.toByte_range (service : ServiceId) :
    0 < service.toByte.toNat ∧ service.toByte.toNat < 0x3f := by
  cases service <;> decide

theorem ServiceId.toNat_toByte_add (service : ServiceId) :
    (service.toByte + 0x40).toNat = service.toByte.toNat + 0x40 := by
  cases service <;> rfl

theorem ServiceId.toByte_add_ne (service : ServiceId) : service.toByte + 0x40 ≠ 0x7f := by
  cases service <;> decide

/-- **The first byte of a positive response.** The subtraction takes every byte below `0x40` to
`0`, which is no identifier. -/
theorem decodeService_saturatingSub_iff {first : UInt8} {service : ServiceId} :
    decodeService (saturatingSub first 0x40) = .ok service ↔ first = service.toByte + 0x40 := by
  have h_range := service.toByte_range
  have h_sub : (saturatingSub first 0x40).toNat = first.toNat - 0x40 := toNat_saturatingSub ..
  rw [decodeService_eq_ok_iff, ← UInt8.toNat_inj, h_sub, ← UInt8.toNat_inj,
    service.toNat_toByte_add]
  omega

/-! ### What the decoder accepts -/

theorem decodeResponse_negative (service code : UInt8) (rest : List UInt8) :
    decodeResponse (0x7f :: service :: code :: rest) = (do
      let service ← decodeService service
      let code ← decodeNegativeResponseCode code
      pure (.negative { service, code })) := rfl

theorem decodeResponse_positive {first : UInt8} (h : first ≠ 0x7f) (rest : List UInt8) :
    decodeResponse (first :: rest) = (do
      let service ← decodeService (saturatingSub first 0x40)
      pure (.positive { service, data := rest })) :=
  if_neg h

/-- `decodeResponse` returns the response for its encoding, and a negative one also with further
bytes behind. -/
inductive Accepts : List UInt8 → Response → Prop where
  | encoded (response : Response) : Accepts response.encode response
  | excess (response : NegativeResponse) (rest : List UInt8) :
      Accepts ((Response.negative response).encode ++ rest) (.negative response)

theorem Accepts.of_decodeResponse {payload : List UInt8} {response : Response}
    (h : decodeResponse payload = .ok response) : Accepts payload response := by
  cases payload with
  | nil => cases h
  | cons first rest =>
    by_cases h_first : first = 0x7f
    · subst h_first
      match rest with
      -- a negative response needs three bytes
      | [] | [_] => cases h
      | raw :: rawCode :: rest =>
        rw [decodeResponse_negative] at h
        obtain ⟨service, h_service, h⟩ := bind_eq_ok_iff.mp h
        obtain ⟨code, h_code, h⟩ := bind_eq_ok_iff.mp h
        cases h
        rw [decodeService_eq_ok_iff.mp h_service, decodeNegativeResponseCode_eq_ok_iff.mp h_code]
        -- what is behind them is dropped
        exact .excess ⟨service, code⟩ rest
    · rw [decodeResponse_positive h_first] at h
      obtain ⟨service, h_service, h⟩ := bind_eq_ok_iff.mp h
      cases h
      rw [decodeService_saturatingSub_iff.mp h_service]
      exact .encoded (.positive ⟨service, rest⟩)

theorem decodeResponse_encode_positive (response : PositiveResponse) :
    decodeResponse (Response.positive response).encode = .ok (.positive response) := by
  rw [Response.encode, decodeResponse_positive response.service.toByte_add_ne,
    decodeService_saturatingSub_iff.mpr rfl, ok_bind]
  rfl

/-- A negative response is decoded with any bytes behind it, none included. -/
theorem decodeResponse_encode_negative (response : NegativeResponse) (rest : List UInt8) :
    decodeResponse ((Response.negative response).encode ++ rest) = .ok (.negative response) := by
  rw [Response.encode, List.cons_append, List.cons_append, List.cons_append,
    decodeResponse_negative, decodeService_eq_ok_iff.mpr rfl, ok_bind,
    decodeNegativeResponseCode_eq_ok_iff.mpr rfl, ok_bind]
  rfl

/-- **The decoder**, as a relation between payloads and responses. -/
theorem decodeResponse_eq_ok_iff {payload : List UInt8} {response : Response} :
    decodeResponse payload = .ok response ↔ Accepts payload response := by
  refine ⟨Accepts.of_decodeResponse, ?_⟩
  rintro (⟨positive | negative⟩ | ⟨negative, rest⟩)
  · exact decodeResponse_encode_positive positive
  · exact decodeResponse_encode_negative negative []
  · exact decodeResponse_encode_negative negative rest

/-! ### Exactness -/

/-- Bytes behind a complete negative response. -/
def HasExcess (payload : List UInt8) : Prop :=
  ∃ (response : NegativeResponse) (rest : List UInt8), rest ≠ [] ∧
    payload = (Response.negative response).encode ++ rest

/-- A payload is decoded to the response it encodes, if to any. -/
def Exact (payload : List UInt8) : Prop :=
  ∀ response, decodeResponse payload = .ok response → payload = response.encode

/-- **When a payload is decoded exactly.** -/
theorem exact_iff {payload : List UInt8} : Exact payload ↔ ¬ HasExcess payload := by
  constructor
  · rintro h_exact ⟨response, rest, h_rest, rfl⟩
    have h_decode := decodeResponse_eq_ok_iff.mpr (.excess response rest)
    exact h_rest (List.append_right_eq_self.mp (h_exact _ h_decode))
  · intro h_excess response h_decode
    cases decodeResponse_eq_ok_iff.mp h_decode with
    | encoded => rfl
    -- only a negative response can have more bytes than it is encoded to
    | excess response rest =>
      by_contra h_ne
      refine h_excess ⟨response, rest, ?_, rfl⟩
      rintro rfl
      exact h_ne (List.append_nil _)

/-- Decoding is exact on two payloads: what is returned for them is what they encode, every
response is returned for its encoding, and they are not decoded alike if they differ. -/
structure DecodesExactly (p q : List UInt8) : Prop where
  exact_left : Exact p
  exact_right : Exact q
  decodes : ∀ response : Response, decodeResponse response.encode = .ok response
  apart : ∀ response, decodeResponse p = .ok response → decodeResponse q = .ok response → p = q

/-- **Which payloads are decoded exactly**: those that are not a negative response with further
bytes behind. -/
theorem decodeResponse_exact_iff (p q : List UInt8) :
    DecodesExactly p q ↔ ¬ HasExcess p ∧ ¬ HasExcess q := by
  constructor
  · exact fun h => ⟨exact_iff.mp h.exact_left, exact_iff.mp h.exact_right⟩
  · rintro ⟨h_p, h_q⟩
    have h_left := exact_iff.mpr h_p
    have h_right := exact_iff.mpr h_q
    refine ⟨h_left, h_right, fun response => ?_, fun response h_decode h_decode' => ?_⟩
    · exact decodeResponse_eq_ok_iff.mpr (.encoded response)
    · exact (h_left response h_decode).trans (h_right response h_decode').symm

/-- Two negative responses of the source's test, the second one with a byte behind: they are
decoded alike. -/
theorem decodeResponse_exact_counterexample :
    decodeResponse [0x7f, 0x22, 0x11] = decodeResponse [0x7f, 0x22, 0x11, 0x00] ∧
      ¬ DecodesExactly [0x7f, 0x22, 0x11] [0x7f, 0x22, 0x11, 0x00] := by
  refine ⟨rfl, fun h => ?_⟩
  have h_apart := h.apart (.negative ⟨.readDataByIdentifier, .serviceNotSupported⟩) rfl rfl
  exact absurd h_apart (by decide)

end Cantools.Uds
