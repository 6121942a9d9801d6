import StreamPay.HexBuffers

/-! Which signature headers the ingestion service accepts for a body. -/
namespace StreamPay

/-- The digests of the runtime are those of 32 bytes, in lower case. -/
def IngestionRuntime.Sha256Digests (runtime : IngestionRuntime) : Prop :=
  ∀ secret rawBody, ∃ mac : List UInt8, mac.length = 32 ∧
    (runtime.hmacHex secret rawBody).toList = hexDigits mac

/-- The header without at most one scheme in front. -/
def incomingSignature (signatureHeader : String) : List Char :=
  if signaturePrefix.toList.isPrefixOf signatureHeader.toList then
    signatureHeader.toList.drop signaturePrefix.toList.length
  else signatureHeader.toList

/-- Exactly 64 hexadecimal digits, in either case, that are those of the digest. -/
structure SpellsDigest (text : List Char) (digest : String) : Prop where
  length : text.length = 64
  hex : isHex text = true
  same : text.map Char.toLower = digest.toList

/-- The digits of the digest are there, and then something that does not begin
with two more digits. -/
def RunsOn (text : List Char) (digest : String) : Prop :=
  ∃ digits more, text = digits ++ more ∧ SpellsDigest digits digest ∧ more ≠ [] ∧ NoPair more

theorem spellsDigest_iff {digits : List Char} {digest : String} {mac : List UInt8}
    (hlength : mac.length = 32) (hdigest : digest.toList = hexDigits mac) :
    SpellsDigest digits digest ↔ Spells digits mac := by
  constructor
  · intro h
    rw [Spells, h.same, hdigest]
  · intro h
    have hcount := congrArg List.length h
    rw [List.length_map, length_hexDigits, hlength] at hcount
    exact ⟨hcount, isHex_of_spells h, by rw [hdigest]; exact h⟩

section
variable {runtime : IngestionRuntime} {rawBody : List UInt8} {signatureHeader secret : String}

theorem isValidSignature_iff (h : runtime.Sha256Digests) :
    isValidSignature runtime rawBody signatureHeader secret = true ↔
      ∃ digits more, incomingSignature signatureHeader = digits ++ more ∧
        SpellsDigest digits (runtime.hmacHex secret rawBody) ∧ NoPair more := by
  obtain ⟨mac,hlength,hdigest⟩ := h secret rawBody
  have hexpected : bufferFromHex (runtime.hmacHex secret rawBody).toList = mac := by
    rw [hdigest, bufferFromHex_hexDigits]
  have hequal : isValidSignature runtime rawBody signatureHeader secret = true ↔
      bufferFromHex (incomingSignature signatureHeader) = mac := by
    have hcompared : isValidSignature runtime rawBody signatureHeader secret =
        (decide ((bufferFromHex (runtime.hmacHex secret rawBody).toList).length =
            (bufferFromHex (incomingSignature signatureHeader)).length) &&
          decide (bufferFromHex (runtime.hmacHex secret rawBody).toList =
            bufferFromHex (incomingSignature signatureHeader))) := rfl
    rw [hcompared, hexpected, Bool.and_eq_true, decide_eq_true_eq, decide_eq_true_eq]
    constructor
    · exact fun hboth => hboth.2.symm
    · intro hsame
      rw [hsame]
      exact ⟨rfl, rfl⟩
  rw [hequal, bufferFromHex_eq_iff]
  simp only [spellsDigest_iff hlength hdigest]

/-- A header is accepted exactly if it spells the digest and nothing else, unless it runs
on behind the digest. -/
theorem signature_exact_iff (runtime : IngestionRuntime) (h : runtime.Sha256Digests)
    (rawBody : List UInt8) (signatureHeader secret : String) :
    (isValidSignature runtime rawBody signatureHeader secret = true ↔
        SpellsDigest (incomingSignature signatureHeader) (runtime.hmacHex secret rawBody)) ↔
      ¬ RunsOn (incomingSignature signatureHeader) (runtime.hmacHex secret rawBody) := by
  rw [isValidSignature_iff h]
  constructor
  · rintro hexact ⟨digits,more,hsplit,hdigits,hmore,hnoPair⟩
    -- what runs on behind the digest is longer than a digest
    have hspelled := (hexact.mp ⟨digits, more, hsplit, hdigits, hnoPair⟩).length
    have hpos := List.length_pos_iff.mpr hmore
    rw [hsplit, List.length_append, hdigits.length] at hspelled
    omega
  · intro hends
    constructor
    · rintro ⟨digits,more,hsplit,hdigits,hnoPair⟩
      by_cases hmore : more = []
      · rw [hsplit, hmore, List.append_nil]
        exact hdigits
      · exact absurd ⟨digits, more, hsplit, hdigits, hmore, hnoPair⟩ hends
    · intro hspelled
      exact ⟨_, [], (List.append_nil _).symm, hspelled, fun _ _ _ hpair => by cases hpair⟩

/-- The service turns a call with a secret down for its signature exactly if the
header is not valid. -/
theorem readEvent_invalidSignature_iff {call : IngestCall} (hsecret : call.secret = some secret)
    (hset : secret ≠ "") (hheader : call.signatureHeader = some signatureHeader)
    (h : runtime.Sha256Digests) :
    (∃ message, readEvent runtime call = .error ⟨.invalidSignature, message⟩) ↔
      isValidSignature runtime call.rawBody signatureHeader secret = false := by
  have hempty : isValidSignature runtime call.rawBody "" secret = false := by
    rw [Bool.eq_false_iff, ne_eq, isValidSignature_iff h]
    rintro ⟨digits,more,hsplit,hdigits,_⟩
    have hnone : digits = [] := (List.append_eq_nil_iff.mp hsplit.symm).1
    have hlength := hdigits.length
    rw [hnone] at hlength
    cases hlength
  -- an empty header is not looked at, and would not be valid either
  have hchecked : ((truthy call.signatureHeader).any fun header =>
      isValidSignature runtime call.rawBody header secret) =
        isValidSignature runtime call.rawBody signatureHeader secret := by
    rw [hheader]
    by_cases hblank : signatureHeader = ""
    · rw [hblank, hempty]
      rfl
    · rw [truthy, Option.filter_some, if_pos (by simp [hblank])]
      rfl
  have hsecret' : truthy call.secret = some secret := by
    rw [hsecret, truthy, Option.filter_some, if_pos (by simp [hset])]
  unfold readEvent
  rw [hsecret']
  dsimp only
  rw [hchecked]
  split_ifs with hinvalid
  · exact iff_of_true ⟨_, rfl⟩ hinvalid
  · refine iff_of_false ?_ hinvalid
    rintro ⟨message,hrejected⟩
    split at hrejected
    · cases hrejected
    · split at hrejected <;> cases hrejected

end

/-- The digest of an empty JSON object under the secret `indexer-secret`. -/
def emptyBodyDigest : String := "f69088c32c85a469978012fef3e3a46e6ec645e4d3c15b9cc38485b83da25618"

def emptyBodyRuntime : IngestionRuntime where
  hmacHex _ _ := emptyBodyDigest
  parseJson _ := some (.object [])
  fingerprintEvent event := event.eventId

theorem emptyBodyRuntime_digests : emptyBodyRuntime.Sha256Digests := by
  have hlength : (bufferFromHex emptyBodyDigest.toList).length = 32 := by decide
  have hdigits : emptyBodyDigest.toList = hexDigits (bufferFromHex emptyBodyDigest.toList) := by
    decide
  exact fun _ _ => ⟨_, hlength, hdigits⟩

theorem signature_of_empty_body_exact :
    (isValidSignature emptyBodyRuntime "\x7b\x7d".toUTF8.toList (signaturePrefix ++ emptyBodyDigest)
        "indexer-secret" = true ↔
      SpellsDigest (incomingSignature (signaturePrefix ++ emptyBodyDigest)) emptyBodyDigest) ↔
    ¬ RunsOn (incomingSignature (signaturePrefix ++ emptyBodyDigest)) emptyBodyDigest :=
  signature_exact_iff emptyBodyRuntime emptyBodyRuntime_digests _ _ _

/-- The right digits with two other letters behind them are accepted. -/
theorem signature_with_garbage_accepted :
    ¬ ∀ (runtime : IngestionRuntime) (rawBody : List UInt8) (signatureHeader secret : String),
      runtime.Sha256Digests →
      (isValidSignature runtime rawBody signatureHeader secret = true ↔
        SpellsDigest (incomingSignature signatureHeader) (runtime.hmacHex secret rawBody)) := by
  intro h
  have hspelled := (h emptyBodyRuntime "\x7b\x7d".toUTF8.toList (emptyBodyDigest ++ "zz")
    "indexer-secret" emptyBodyRuntime_digests).mp (by decide)
  exact absurd hspelled.length (by decide)

end StreamPay
