import StreamPay.Library.JsString
import StreamPay.Library.TextReplacement

/-! Signing and submitting a transaction: the texts of the errors, and the seed that is
taken out of them. -/
namespace StreamPay
open TextReplacement

inductive TransactionSignerMode
  | backendSign
  | externalSigner
deriving DecidableEq

structure TransactionServiceConfig where
  mode : TransactionSignerMode
  signingSeed : Option Utf16
  externalSignerUrl : Option Utf16

structure TransactionSubmissionResult where
  hash : Utf16
  ledger : Option ℕ

inductive SubmitTransactionOutcome
  | submitted (mode : TransactionSignerMode) (hash : Utf16) (ledger : Option ℕ)
      (signedXdr : Utf16)
  | awaitingExternalSignature (unsignedXdr : Utf16) (signerUrl : Option Utf16)

structure TransactionService where
  config : TransactionServiceConfig
  /-- `submitSignedTransaction`. -/
  networkClient : Utf16 → Except Thrown TransactionSubmissionResult
  /-- `signTransactionXdr`, where there is a signer. -/
  signer : Option (Utf16 → Except Thrown Utf16)

namespace TransactionService

/-- `!text || !text.trim()`. -/
def isMissing (text : Utf16) : Bool := text.all fun unit => (Char.ofNat unit.toNat).isTrimmed

def redact (service : TransactionService) (value : Utf16) : Utf16 :=
  match service.config.signingSeed.filter (· ≠ []) with
  | none => value
  | some signingSeed => "[REDACTED]".utf16.intercalate (split signingSeed value)

/-- The message of the error that is thrown. -/
def toSafeError (service : TransactionService) (message : Utf16) (cause : Thrown) : Utf16 :=
  let details := match cause with
    | .error message => service.redact message
    | .other => "Unknown error".utf16
  message ++ ": ".utf16 ++ details

/-- The outcome, or the message of the error that is thrown. -/
def submitSignedXdr (service : TransactionService) (signedXdr : Utf16)
    (mode : TransactionSignerMode) : Except Utf16 SubmitTransactionOutcome :=
  if isMissing signedXdr then .error "signedXdr is required".utf16
  else match service.networkClient signedXdr with
    | .ok result => .ok (.submitted mode result.hash result.ledger signedXdr)
    | .error cause => .error (service.toSafeError "Failed to submit transaction".utf16 cause)

def submitTransaction (service : TransactionService) (unsignedXdr : Utf16) :
    Except Utf16 SubmitTransactionOutcome :=
  if isMissing unsignedXdr then .error "unsignedXdr is required".utf16
  else if service.config.mode = .externalSigner then
    .ok (.awaitingExternalSignature unsignedXdr service.config.externalSignerUrl)
  else match service.signer with
    | none => .error "Signer is required when TX_SIGNER_MODE=backend_sign".utf16
    | some signTransactionXdr =>
      match signTransactionXdr unsignedXdr with
      -- the promise is returned without `await`, so its error passes the `catch` by
      | .ok signedXdr => service.submitSignedXdr signedXdr .backendSign
      | .error cause =>
        .error (service.toSafeError "Failed to sign and submit transaction".utf16 cause)

/-- `/^[A-Z2-7]{56}$/`. -/
structure IsSecretSeed (seed : Utf16) : Prop where
  length : seed.length = 56
  letters : ∀ unit ∈ seed, (0x41 ≤ unit ∧ unit ≤ 0x5A) ∨ (0x32 ≤ unit ∧ unit ≤ 0x37)

theorem IsSecretSeed.ne_nil {seed : Utf16} (h : IsSecretSeed seed) : seed ≠ [] := by
  rintro rfl
  cases h.length

theorem IsSecretSeed.not_infix_of_length {seed text : Utf16} (h : IsSecretSeed seed)
    (htext : text.length < 56) : ¬seed <:+: text := by
  intro hinside
  have hle := hinside.length_le
  rw [h.length] at hle
  omega

theorem IsSecretSeed.separates {seed : Utf16} (h : IsSecretSeed seed) :
    Separates seed 0x5B "REDACTED".utf16 0x5D where
  opening hmem := absurd (h.letters _ hmem) (by decide)
  inner := h.not_infix_of_length (by decide)
  closing hmem := absurd (h.letters _ hmem) (by decide)

section
variable {service : TransactionService} {seed : Utf16}

theorem redact_eq (hconfig : service.config.signingSeed = some seed) (hseed : seed ≠ [])
    (value : Utf16) :
    service.redact value = "[REDACTED]".utf16.intercalate (split seed value) := by
  have hkept : service.config.signingSeed.filter (· ≠ []) = some seed := by
    rw [hconfig, Option.filter_some, if_pos (decide_eq_true hseed)]
  simp only [redact, hkept]

/-- The pieces between the occurrences of the seed stay, and have none in them. -/
theorem redact_replaces (hconfig : service.config.signingSeed = some seed) (hseed : seed ≠ [])
    (value : Utf16) :
    ∃ kept, value = seed.intercalate kept ∧
      service.redact value = "[REDACTED]".utf16.intercalate kept ∧
      ∀ text ∈ kept, ¬seed <:+: text := by
  exact ⟨split seed value, (intercalate_pieces hseed value 0).symm,
    redact_eq hconfig hseed value, not_infix_of_mem_pieces hseed value 0⟩

theorem redact_clean (hconfig : service.config.signingSeed = some seed)
    (hseed : IsSecretSeed seed) (value : Utf16) : ¬seed <:+: service.redact value := by
  obtain ⟨kept,_,hredacted,hkept⟩ := redact_replaces hconfig hseed.ne_nil value
  have hmarker : "[REDACTED]".utf16 = 0x5B :: ("REDACTED".utf16 ++ [0x5D]) := by decide
  rw [hredacted, hmarker]
  exact hseed.separates.not_infix_intercalate hseed.ne_nil hkept

/-- The blank before the details is no letter of a seed. -/
theorem toSafeError_clean (hconfig : service.config.signingSeed = some seed)
    (hseed : IsSecretSeed seed) {message : Utf16} (hmessage : message.length < 55)
    (cause : Thrown) : ¬seed <:+: service.toSafeError message cause := by
  have hblank : (0x20 : UInt16) ∉ seed := fun hmem => absurd (hseed.letters _ hmem) (by decide)
  have hafter (details : Utf16) (hdetails : ¬seed <:+: details) :
      ¬seed <:+: message ++ ": ".utf16 ++ details := by
    have hcut : message ++ ": ".utf16 ++ details = (message ++ [0x3A]) ++ 0x20 :: details := by
      have hcolon : ": ".utf16 = [0x3A, 0x20] := by decide
      rw [hcolon, List.append_assoc, List.append_assoc]
      rfl
    rw [hcut]
    intro hinside
    rcases infix_append_cons hblank hinside with hbefore | hbehind
    · refine hseed.not_infix_of_length ?_ hbefore
      rw [List.length_append, List.length_singleton]
      omega
    · exact hdetails hbehind
  cases cause with
  | error details => exact hafter _ (redact_clean hconfig hseed details)
  | other => exact hafter "Unknown error".utf16 (hseed.not_infix_of_length (by decide))

theorem submitSignedXdr_clean (hconfig : service.config.signingSeed = some seed)
    (hseed : IsSecretSeed seed) {signedXdr message : Utf16} {mode : TransactionSignerMode}
    (h : service.submitSignedXdr signedXdr mode = .error message) : ¬seed <:+: message := by
  unfold submitSignedXdr at h
  split_ifs at h with hmissing
  · rw [← Except.error.inj h]
    exact hseed.not_infix_of_length (by decide)
  · cases hresult : service.networkClient signedXdr with
    | ok result =>
      rw [hresult] at h
      cases h
    | error cause =>
      rw [hresult] at h
      rw [← Except.error.inj h]
      exact toSafeError_clean hconfig hseed (by decide) cause

end

/-- Whatever the signer and the network answer, the seed is in no message that is thrown. -/
theorem no_seed_in_thrown_messages (service : TransactionService) {seed : Utf16}
    (hseed : IsSecretSeed seed) (hconfig : service.config.signingSeed = some seed) :
    (∀ unsignedXdr message, service.submitTransaction unsignedXdr = .error message →
      ¬seed <:+: message) ∧
    ∀ signedXdr mode message, service.submitSignedXdr signedXdr mode = .error message →
      ¬seed <:+: message := by
  refine ⟨fun unsignedXdr message h => ?_, fun _ _ _ h => submitSignedXdr_clean hconfig hseed h⟩
  unfold submitTransaction at h
  split_ifs at h with hmissing hexternal
  · rw [← Except.error.inj h]
    exact hseed.not_infix_of_length (by decide)
  · cases hsigner : service.signer with
    | none =>
      rw [hsigner] at h
      rw [← Except.error.inj h]
      exact hseed.not_infix_of_length (by decide)
    | some signTransactionXdr =>
      rw [hsigner] at h
      dsimp only at h
      cases hsigned : signTransactionXdr unsignedXdr with
      | ok signedXdr =>
        rw [hsigned] at h
        exact submitSignedXdr_clean hconfig hseed h
      | error cause =>
        rw [hsigned] at h
        rw [← Except.error.inj h]
        exact toSafeError_clean hconfig hseed (by decide) cause

/-- With a seed of one letter, which overlaps itself in what the network client tells. -/
def overlappingService : TransactionService where
  config := ⟨.backendSign, some (List.replicate 56 0x41), none⟩
  networkClient _ := .error (.error (List.replicate 100 0x41))
  signer := some fun _ => .ok "signed".utf16

theorem overlapping_seed_redacted : ∃ message,
    overlappingService.submitTransaction "unsigned".utf16 = .error message ∧
      ¬List.replicate 56 0x41 <:+: message := by
  have hseed : IsSecretSeed (List.replicate 56 0x41) := by
    refine ⟨List.length_replicate, fun unit hunit => ?_⟩
    rw [List.eq_of_mem_replicate hunit]
    decide
  have hclean := (no_seed_in_thrown_messages overlappingService hseed rfl).1
  exact ⟨_, rfl, hclean "unsigned".utf16 _ rfl⟩

end TransactionService
end StreamPay
