import StreamPay.EventFingerprints
import StreamPay.EventIngestion

/-! The fingerprint of a payload: which payloads share one, and that the ingestion reads
the same event from a body. -/
namespace StreamPay
open JsonValue

namespace ParsedEvent

/-- The events of two payloads, of which one lists members in another order. -/
structure Reordered (event event' : ParsedEvent) : Prop where
  fields : event' = { event with data := event'.data }
  data : Option.Rel (fun ms ms' => SameUpToOrder (.object ms) (.object ms')) event.data event'.data

theorem getString_eq_of_rel {candidate candidate' : JsonValue} {key : Utf16}
    (h : Option.Rel SameUpToOrder (candidate.get key) (candidate'.get key)) :
    candidate.getString key = candidate'.getString key := by
  unfold JsonValue.getString
  generalize candidate.get key = value, candidate'.get key = value' at h ⊢
  cases h with
  | none => rfl
  | some h =>
    cases h with
    | leaf h => rw [h]
    | array _ _ => rfl
    | object _ _ => rfl

theorem parseSequence_eq_of_rel {value value' : Option JsonValue}
    (h : Option.Rel SameUpToOrder value value') : parseSequence value = parseSequence value' := by
  cases h with
  | none => rfl
  | some h =>
    cases h with
    | leaf h => rw [h]
    | array _ _ => rfl
    | object _ _ => rfl

theorem isRecord_rel {value value' : Option JsonValue}
    (h : Option.Rel SameUpToOrder value value') :
    Option.Rel (fun ms ms' => SameUpToOrder (.object ms) (.object ms')) (isRecord value)
      (isRecord value') := by
  cases h with
  | none => exact .none
  | some h =>
    cases h with
    | leaf _ => exact .none
    | array _ _ => exact .none
    | object hkeys hmembers => exact .some (.object hkeys hmembers)

/-- A payload that lists members in another order gives the same event up to the order
inside `data`. -/
theorem parsePayload_reordered {payload payload' : JsonValue} (h : payload.DistinctKeys)
    (h' : payload'.DistinctKeys) (hsame : payload.SameUpToOrder payload') :
    Option.Rel Reordered (parsePayload payload) (parsePayload payload') := by
  have hget := get_sameUpToOrder h h' hsame
  have hrequired (key : String) : requiredString payload key = requiredString payload' key := by
    unfold requiredString
    rw [getString_eq_of_rel (hget key.utf16)]
  unfold parsePayload
  rw [hrequired, hrequired, hrequired, hrequired, getString_eq_of_rel (hget "chainId".utf16),
    getString_eq_of_rel (hget "transactionHash".utf16),
    parseSequence_eq_of_rel (hget "sequence".utf16)]
  split
  · exact .some ⟨rfl, isRecord_rel (hget "data".utf16)⟩
  · exact .none

theorem members_rel {entries entries' : List (String × Option JsonValue)}
    (h : List.Forall₂ (fun m m' => m.1 = m'.1 ∧ Option.Rel SameUpToOrder m.2 m'.2) entries
      entries') :
    List.Forall₂ (fun m m' => m.1 = m'.1 ∧ SameUpToOrder m.2 m'.2)
      (entries.filterMap fun (key,entry) => entry.map fun entry => (key.utf16, entry))
      (entries'.filterMap fun (key,entry) => entry.map fun entry => (key.utf16, entry)) := by
  induction h with
  | nil => exact .nil
  | @cons m m' _ _ hm _ ih =>
    obtain ⟨key,entry⟩ := m
    obtain ⟨key',entry'⟩ := m'
    obtain ⟨hkey,hentry⟩ := hm
    have hkey : key = key' := hkey
    cases hentry with
    | none => exact ih
    | some hsame => exact .cons ⟨congrArg String.utf16 hkey, hsame⟩ ih

theorem Reordered.value {event event' : ParsedEvent} (h : Reordered event event') :
    event.value.SameUpToOrder event'.value := by
  apply object_sameUpToOrder (nodup_keys event)
  apply members_rel
  obtain ⟨hfields,hdata⟩ := h
  generalize event'.data = data at hfields hdata
  subst hfields
  have hleaf {α : Type} (f : α → JsonLeaf) (x : Option α) :
      Option.Rel SameUpToOrder (x.map fun x => .leaf (f x)) (x.map fun x => .leaf (f x)) := by
    cases x with
    | none => exact .none
    | some x => exact .some (.leaf rfl)
  have hrecord {ms ms' : Option (List (Utf16 × JsonValue))}
      (h : Option.Rel (fun ms ms' => SameUpToOrder (.object ms) (.object ms')) ms ms') :
      Option.Rel SameUpToOrder (ms.map .object) (ms'.map .object) := by
    cases h with
    | none => exact .none
    | some h => exact .some h
  exact .cons ⟨rfl, .some (.leaf rfl)⟩ (.cons ⟨rfl, .some (.leaf rfl)⟩
    (.cons ⟨rfl, .some (.leaf rfl)⟩ (.cons ⟨rfl, .some (.leaf rfl)⟩
    (.cons ⟨rfl, hleaf .string event.chainId⟩ (.cons ⟨rfl, hleaf .string event.transactionHash⟩
    (.cons ⟨rfl, hleaf (fun x => .number (.finite x)) event.sequence⟩
    (.cons ⟨rfl, hrecord hdata⟩ .nil)))))))

/-- A redelivery that only lists members in another order has the same fingerprint where
`localeCompare` ties no two keys of the event. -/
theorem fingerprint_of_reordered (localeCompare : LocaleCompare) (sha256Hex : Utf16 → String)
    {payload payload' : JsonValue} (h : payload.DistinctKeys) (h' : payload'.DistinctKeys)
    (hsame : payload.SameUpToOrder payload') {event : ParsedEvent}
    (hparse : parsePayload payload = some event) (huntied : UntiedKeys localeCompare event.value) :
    ∃ event', parsePayload payload' = some event' ∧
      event'.fingerprintEvent localeCompare sha256Hex =
        event.fingerprintEvent localeCompare sha256Hex := by
  have hrel := parsePayload_reordered h h' hsame
  rw [hparse] at hrel
  cases hparse' : parsePayload payload' with
  | none =>
    rw [hparse'] at hrel
    cases hrel
  | some event' =>
    rw [hparse'] at hrel
    cases hrel with
    | some hreordered =>
      have htext := canonicalize_eq_of_untied localeCompare (distinctKeys_value h hparse)
        (distinctKeys_value h' hparse') huntied hreordered.value
      refine ⟨event', rfl, ?_⟩
      rw [fingerprintEvent, fingerprintEvent, htext]

/-- Without a collision of the two texts, a fingerprint is shared exactly by events that
are equal up to infinite numbers and the order of members, with tied keys in the same
order. -/
theorem fingerprint_eq_iff (localeCompare : LocaleCompare) {sha256Hex : Utf16 → String}
    {payload payload' : JsonValue} (h : payload.DistinctKeys) (h' : payload'.DistinctKeys)
    {event event' : ParsedEvent} (hparse : parsePayload payload = some event)
    (hparse' : parsePayload payload' = some event')
    (hcollision : ∀ text text', text = canonicalize localeCompare event.value →
      text' = canonicalize localeCompare event'.value → sha256Hex text = sha256Hex text' →
      text = text') :
    event.fingerprintEvent localeCompare sha256Hex =
        event'.fingerprintEvent localeCompare sha256Hex ↔
      SameWithoutInfinities event.value event'.value ∧
        TiesAgree localeCompare event.value event'.value := by
  rw [← canonicalize_eq_iff localeCompare (distinctKeys_value h hparse)
    (distinctKeys_value h' hparse')]
  constructor
  · exact hcollision _ _ rfl rfl
  · exact congrArg sha256Hex

end ParsedEvent

/-! The event that the ingestion reads is the one that is fingerprinted. -/

/-- One value in both of its forms: with code units and doubles, and with texts and
rational numbers. -/
inductive Denotes : JsonValue → Json → Prop
  | null : Denotes (.leaf .null) .null
  | bool (b : Bool) : Denotes (.leaf (.bool b)) (.bool b)
  | finite (x : Double) : Denotes (.leaf (.number (.finite x))) (.number (.finite x.toRat))
  | infinity : Denotes (.leaf (.number (.infinity false))) (.number .infinity)
  | negInfinity : Denotes (.leaf (.number (.infinity true))) (.number .negInfinity)
  | string (s : String) : Denotes (.leaf (.string s.utf16)) (.string s)
  | array {items : List JsonValue} {items' : List Json} (h : List.Forall₂ Denotes items items') :
      Denotes (.array items) (.array items')
  | object {members : List (Utf16 × JsonValue)} {members' : List (String × Json)}
      (hnames : keys members = members'.map fun m => m.1.utf16)
      (hvalues : List.Forall₂ Denotes (members.map Prod.snd) (members'.map Prod.snd)) :
      Denotes (.object members) (.object members')

theorem lookup_denotes {members : List (Utf16 × JsonValue)} {members' : List (String × Json)}
    (hnames : keys members = members'.map fun m => m.1.utf16)
    (hvalues : List.Forall₂ Denotes (members.map Prod.snd) (members'.map Prod.snd))
    (key : String) : Option.Rel Denotes (members.lookup key.utf16) (members'.lookup key) := by
  induction members generalizing members' with
  | nil =>
    rw [List.map_eq_nil_iff.mp hnames.symm]
    exact .none
  | cons m members ih =>
    obtain ⟨m',rest,rfl,hname,hrest⟩ := List.map_eq_cons_iff.mp hnames.symm
    obtain ⟨hvalue,hback⟩ := List.forall₂_cons.mp hvalues
    obtain ⟨name,v⟩ := m
    obtain ⟨name',j⟩ := m'
    have hname : name'.utf16 = name := hname
    rw [List.lookup_cons, List.lookup_cons, ← hname]
    by_cases hkey : key = name'
    · rw [hkey, beq_self_eq_true, beq_self_eq_true]
      exact .some hvalue
    · have hcode : key.utf16 ≠ name'.utf16 := fun he => hkey (String.utf16_injective he)
      rw [beq_eq_false_iff_ne.mpr hkey, beq_eq_false_iff_ne.mpr hcode]
      exact ih hrest.symm hback

theorem get_denotes {v : JsonValue} {j : Json} (h : Denotes v j) (key : String) :
    Option.Rel Denotes (v.get key.utf16) (j.get key) := by
  cases h with
  | object hnames hvalues => exact lookup_denotes hnames hvalues key
  | null => exact .none
  | bool b => exact .none
  | finite x => exact .none
  | infinity => exact .none
  | negInfinity => exact .none
  | string s => exact .none
  | array _ => exact .none

theorem getString_denotes {v : JsonValue} {j : Json} (h : Denotes v j) (key : String) :
    v.getString key.utf16 = (j.getString key).map String.utf16 := by
  unfold JsonValue.getString Json.getString
  have hrel := get_denotes h key
  generalize v.get key.utf16 = value, j.get key = value' at hrel ⊢
  cases hrel with
  | none => rfl
  | some h =>
    cases h with
    | string s => rfl
    | null => rfl
    | bool b => rfl
    | finite x => rfl
    | infinity => rfl
    | negInfinity => rfl
    | array _ => rfl
    | object _ _ => rfl

theorem requiredString_denotes {v : JsonValue} {j : Json} (h : Denotes v j) (key : String) :
    ParsedEvent.requiredString v key = (j.getNonEmptyString key).map String.utf16 := by
  unfold ParsedEvent.requiredString Json.getNonEmptyString
  rw [getString_denotes h]
  cases j.getString key with
  | none => rfl
  | some s =>
    have hempty : s.utf16 = [] ↔ s = "" := String.utf16_injective.eq_iff (b := "")
    by_cases hs : s = ""
    · rw [hs]
      rfl
    · simp [Option.filter, hempty, hs]

theorem one_pos : 0 < ParsedEvent.one := by
  unfold ParsedEvent.one
  positivity

theorem toRat_eq (x : Double) : x.toRat = x.units/(ParsedEvent.one : ℚ) := by
  rw [Double.toRat, ParsedEvent.one, Int.cast_pow, Int.cast_ofNat]

theorem integer_toRat {x : Double} {n : ℤ} (h : x.units = n*ParsedEvent.one) :
    (JsNumber.finite x.toRat).integer? = some n := by
  have hone : (ParsedEvent.one : ℚ) ≠ 0 := by exact_mod_cast one_pos.ne'
  have hvalue : x.toRat = n := by
    rw [toRat_eq, h, Int.cast_mul, mul_div_cancel_right₀ _ hone]
  rw [JsNumber.integer?, hvalue, if_pos (Rat.den_intCast n), Rat.num_intCast]

theorem integer_toRat_none {x : Double} (h : x.units % ParsedEvent.one ≠ 0) :
    (JsNumber.finite x.toRat).integer? = none := by
  rw [JsNumber.integer?]
  apply if_neg
  intro hden
  have hone : (ParsedEvent.one : ℚ) ≠ 0 := by exact_mod_cast one_pos.ne'
  have hvalue : ((x.toRat.num : ℤ) : ℚ) = x.units/(ParsedEvent.one : ℚ) := by
    rw [Rat.coe_int_num_of_den_eq_one hden, toRat_eq]
  have hunits : x.units = x.toRat.num*ParsedEvent.one := by
    rw [eq_div_iff hone] at hvalue
    exact_mod_cast hvalue.symm
  exact h (by rw [hunits, Int.mul_emod_left])

theorem isSafeSequence_iff {x : Double} {n : ℤ} (h : x.units = n*ParsedEvent.one) :
    ParsedEvent.isSafeSequence x = true ↔ 1 ≤ n ∧ n ≤ maxSafeInteger := by
  have hmod : x.units % ParsedEvent.one = 0 := by rw [h, Int.mul_emod_left]
  have hlow : ParsedEvent.one ≤ x.units ↔ 1 ≤ n := by
    rw [h]
    exact le_mul_iff_one_le_left one_pos
  have hhigh (hn : 1 ≤ n) :
      (x.units.natAbs : ℤ) ≤ (2^53-1)*ParsedEvent.one ↔ n ≤ maxSafeInteger := by
    have hpos : 0 ≤ x.units := one_pos.le.trans (hlow.mpr hn)
    rw [Int.natAbs_of_nonneg hpos, h, mul_le_mul_iff_left₀ one_pos, maxSafeInteger]
  rw [ParsedEvent.isSafeSequence, Bool.and_eq_true, Bool.and_eq_true, decide_eq_true_eq,
    decide_eq_true_eq, decide_eq_true_eq, hlow]
  constructor
  · rintro ⟨⟨_,hle⟩,hn⟩
    exact ⟨hn, (hhigh hn).mp hle⟩
  · rintro ⟨hn,hle⟩
    exact ⟨⟨hmod, (hhigh hn).mpr hle⟩, hn⟩

theorem parseSequence_finite (x : Double) :
    (ParsedEvent.parseSequence (some (.leaf (.number (.finite x))))).map Double.units =
      (parseSequence (some (.number (.finite x.toRat)))).map
        fun n : ℕ => (n:ℤ)*ParsedEvent.one := by
  change (if ParsedEvent.isSafeSequence x = true then some x else none).map Double.units =
    (((JsNumber.finite x.toRat).integer?.filter fun n => 1 ≤ n ∧ n ≤ maxSafeInteger).map
      Int.toNat).map fun n : ℕ => (n:ℤ)*ParsedEvent.one
  by_cases hwhole : x.units % ParsedEvent.one = 0
  · have hunits : x.units = x.units/ParsedEvent.one*ParsedEvent.one :=
      (Int.ediv_mul_cancel (Int.dvd_of_emod_eq_zero hwhole)).symm
    have hsafe := isSafeSequence_iff hunits
    rw [integer_toRat hunits]
    by_cases hrange : 1 ≤ x.units/ParsedEvent.one ∧ x.units/ParsedEvent.one ≤ maxSafeInteger
    · have hnonneg : 0 ≤ x.units/ParsedEvent.one := by omega
      rw [if_pos (hsafe.mpr hrange), Option.filter_some, if_pos (decide_eq_true hrange),
        Option.map_some, Option.map_some, Option.map_some, Int.toNat_of_nonneg hnonneg, ← hunits]
    · have hnot : ¬ decide (1 ≤ x.units/ParsedEvent.one ∧
          x.units/ParsedEvent.one ≤ maxSafeInteger) = true :=
        fun h => hrange (of_decide_eq_true h)
      rw [if_neg (fun h => hrange (hsafe.mp h)), Option.filter_some, if_neg hnot]
      rfl
  · have hunsafe : ParsedEvent.isSafeSequence x = false := by
      rw [ParsedEvent.isSafeSequence, decide_eq_false hwhole]
      rfl
    rw [integer_toRat_none hwhole, hunsafe]
    rfl

/-- Both forms of a value are sequences alike. -/
theorem parseSequence_denotes {value : Option JsonValue} {value' : Option Json}
    (h : Option.Rel Denotes value value') :
    (ParsedEvent.parseSequence value).map Double.units =
      (parseSequence value').map fun n : ℕ => (n:ℤ)*ParsedEvent.one := by
  cases h with
  | none => rfl
  | some h =>
    cases h with
    | finite x => exact parseSequence_finite x
    | null => rfl
    | bool b => rfl
    | infinity => rfl
    | negInfinity => rfl
    | string s => rfl
    | array _ => rfl
    | object _ _ => rfl

theorem isRecord_denotes {value : Option JsonValue} {value' : Option Json}
    (h : Option.Rel Denotes value value') :
    Option.Rel (fun ms ms' => Denotes (.object ms) (.object ms')) (ParsedEvent.isRecord value)
      (isRecord value') := by
  cases h with
  | none => exact .none
  | some h =>
    cases h with
    | object hnames hvalues => exact .some (.object hnames hvalues)
    | null => exact .none
    | bool b => exact .none
    | finite x => exact .none
    | infinity => exact .none
    | negInfinity => exact .none
    | string s => exact .none
    | array _ => exact .none

/-- The ingestion's form of an event. -/
structure Reads (event : ParsedEvent) (payload : IndexerEventPayload) : Prop where
  eventId : event.eventId = payload.eventId.utf16
  eventType : event.eventType = payload.eventType.utf16
  streamId : event.streamId = payload.streamId.utf16
  occurredAt : event.occurredAt = payload.occurredAt.utf16
  chainId : event.chainId = payload.chainId.map String.utf16
  transactionHash : event.transactionHash = payload.transactionHash.map String.utf16
  sequence : event.sequence.map Double.units =
    payload.sequence.map fun n : ℕ => (n:ℤ)*ParsedEvent.one
  data : Option.Rel (fun ms ms' => Denotes (.object ms) (.object ms')) event.data payload.data

/-- Both models of `parsePayload` read one event from one value. -/
theorem parsePayload_reads {v : JsonValue} {j : Json} (h : Denotes v j) :
    Option.Rel Reads (ParsedEvent.parsePayload v) (parsePayload j) := by
  unfold ParsedEvent.parsePayload parsePayload
  rw [requiredString_denotes h, requiredString_denotes h, requiredString_denotes h,
    requiredString_denotes h]
  cases j.getNonEmptyString "eventId" with
  | none => exact .none
  | some eventId =>
  cases j.getNonEmptyString "eventType" with
  | none => exact .none
  | some eventType =>
  cases j.getNonEmptyString "streamId" with
  | none => exact .none
  | some streamId =>
  cases j.getNonEmptyString "occurredAt" with
  | none => exact .none
  | some occurredAt =>
    exact .some ⟨rfl, rfl, rfl, rfl, getString_denotes h "chainId",
      getString_denotes h "transactionHash", parseSequence_denotes (get_denotes h "sequence"),
      isRecord_denotes (get_denotes h "data")⟩

theorem toRat_injective : Function.Injective Double.toRat := by
  intro x y h
  have hone : (ParsedEvent.one : ℚ) ≠ 0 := by exact_mod_cast one_pos.ne'
  rw [toRat_eq, toRat_eq, div_left_inj' hone] at h
  have hunits : x.units = y.units := by exact_mod_cast h
  cases x
  cases y
  congr

theorem eq_of_forall₂ {α β : Type*} {R : α → β → Prop} {as as' : List α} {bs : List β}
    (hunique : ∀ a ∈ as, ∀ a' b, R a b → R a' b → a = a') (h : List.Forall₂ R as bs)
    (h' : List.Forall₂ R as' bs) : as = as' := by
  induction h generalizing as' with
  | nil => exact (List.forall₂_nil_right_iff.mp h').symm
  | cons hab _ ih =>
    obtain ⟨a',rest,hab',hrest,rfl⟩ := List.forall₂_cons_right_iff.mp h'
    rw [hunique _ List.mem_cons_self _ _ hab hab',
      ih (fun a ha => hunique a (List.mem_cons_of_mem _ ha)) hrest]

/-- The ingestion's form of a value leaves no doubt which value it is. -/
theorem Denotes.unique {v w : JsonValue} {j : Json} (h : Denotes v j) (h' : Denotes w j) :
    v = w := by
  induction v using JsonValue.induction generalizing w j with
  | leaf x =>
    cases h with
    | finite x =>
      generalize hnumber : JsNumber.finite x.toRat = number at h'
      cases h' with
      | finite y => rw [toRat_injective (JsNumber.finite.inj hnumber)]
      | infinity => cases hnumber
      | negInfinity => cases hnumber
    | null =>
      cases h'
      rfl
    | bool b =>
      cases h'
      rfl
    | infinity =>
      cases h'
      rfl
    | negInfinity =>
      cases h'
      rfl
    | string s =>
      cases h'
      rfl
  | array items ih =>
    cases h with
    | array hitems =>
    cases h' with
    | array hitems' =>
      have hunique : ∀ item ∈ items, ∀ item' k, Denotes item k → Denotes item' k → item = item' :=
        fun item hitem item' k hr hr' => ih item hitem hr hr'
      rw [eq_of_forall₂ hunique hitems hitems']
  | object members ih =>
    cases h with
    | object hnames hvalues =>
    cases h' with
    | @object members' _ hnames' hvalues' =>
      have hkeys : members.map Prod.fst = members'.map Prod.fst := hnames.trans hnames'.symm
      have hsame : members.map Prod.snd = members'.map Prod.snd := by
        apply eq_of_forall₂ ?_ hvalues hvalues'
        intro x hx y b hr hr'
        obtain ⟨m,hm,rfl⟩ := List.mem_map.mp hx
        exact ih m hm hr hr'
      have hmembers : members = members' := by
        rw [← List.zip_unzip members, ← List.zip_unzip members', List.unzip_eq_map,
          List.unzip_eq_map, hkeys, hsame]
      rw [hmembers]

theorem Reads.unique {event event' : ParsedEvent} {payload : IndexerEventPayload}
    (h : Reads event payload) (h' : Reads event' payload) : event = event' := by
  have hsequence : event.sequence = event'.sequence := by
    have hunits : Function.Injective Double.units := by
      intro x y hxy
      cases x
      cases y
      congr
    exact Option.map_injective hunits (h.sequence.trans h'.sequence.symm)
  have hdata : event.data = event'.data := by
    have hrel := h.data
    have hrel' := h'.data
    generalize event.data = data, event'.data = data', payload.data = read at hrel hrel' ⊢
    cases hrel with
    | none =>
      cases hrel'
      rfl
    | some hdenotes =>
      cases hrel' with
      | some hdenotes' => rw [JsonValue.object.inj (hdenotes.unique hdenotes')]
  apply ParsedEvent.ext
  · exact h.eventId.trans h'.eventId.symm
  · exact h.eventType.trans h'.eventType.symm
  · exact h.streamId.trans h'.streamId.symm
  · exact h.occurredAt.trans h'.occurredAt.symm
  · exact h.chainId.trans h'.chainId.symm
  · exact h.transactionHash.trans h'.transactionHash.symm
  · exact hsequence
  · exact hdata

/-- The runtime's fingerprint of an event is the digest of its canonical text. -/
def FingerprintsEvents (runtime : IngestionRuntime) (localeCompare : LocaleCompare)
    (sha256Hex : Utf16 → String) : Prop :=
  ∀ event payload, Reads event payload →
    runtime.fingerprintEvent payload = event.fingerprintEvent localeCompare sha256Hex

/-- The digest is a function of the ingestion's form of an event. -/
theorem exists_fingerprintsEvents (runtime : IngestionRuntime) (localeCompare : LocaleCompare)
    (sha256Hex : Utf16 → String) :
    ∃ fingerprint, FingerprintsEvents { runtime with fingerprintEvent := fingerprint }
      localeCompare sha256Hex := by
  have hchoice (payload : IndexerEventPayload) : ∃ text, ∀ event, Reads event payload →
      text = event.fingerprintEvent localeCompare sha256Hex := by
    by_cases hread : ∃ event, Reads event payload
    · obtain ⟨event,hevent⟩ := hread
      refine ⟨event.fingerprintEvent localeCompare sha256Hex, fun event' hevent' => ?_⟩
      rw [hevent.unique hevent']
    · exact ⟨"", fun event hevent => absurd ⟨event, hevent⟩ hread⟩
  choose fingerprint hfingerprint using hchoice
  exact ⟨fingerprint, fun event payload hread => hfingerprint payload event hread⟩

/-- A redelivery that only lists members in another order asks the replay guard for the
same event id and the same fingerprint. -/
theorem redelivery_claims_same {runtime : IngestionRuntime} {localeCompare : LocaleCompare}
    {sha256Hex : Utf16 → String} (hruntime : FingerprintsEvents runtime localeCompare sha256Hex)
    {v w : JsonValue} {j k : Json} (hj : Denotes v j) (hk : Denotes w k) (hv : v.DistinctKeys)
    (hw : w.DistinctKeys) (hsame : v.SameUpToOrder w)
    (huntied : ∀ event, ParsedEvent.parsePayload v = some event →
      UntiedKeys localeCompare event.value)
    {payload : IndexerEventPayload} (hparse : parsePayload j = some payload) :
    ∃ payload', parsePayload k = some payload' ∧ payload'.eventId = payload.eventId ∧
      runtime.fingerprintEvent payload' = runtime.fingerprintEvent payload := by
  have hreads := parsePayload_reads hj
  have hreads' := parsePayload_reads hk
  have hreordered := ParsedEvent.parsePayload_reordered hv hw hsame
  rw [hparse] at hreads
  generalize hevent : ParsedEvent.parsePayload v = read at hreads hreordered
  cases hreads with
  | @some event _ hread =>
  generalize hevent' : ParsedEvent.parsePayload w = read' at hreads' hreordered
  cases hreordered with
  | @some _ event' hmoved =>
  generalize hparse' : parsePayload k = parsed' at hreads'
  cases hreads' with
  | @some _ payload' hread' =>
    have hid : payload'.eventId.utf16 = payload.eventId.utf16 := by
      rw [← hread'.eventId, ← hread.eventId, hmoved.fields]
    have htext := canonicalize_eq_of_untied localeCompare
      (ParsedEvent.distinctKeys_value hv hevent) (ParsedEvent.distinctKeys_value hw hevent')
      (huntied event hevent) hmoved.value
    refine ⟨payload', rfl, String.utf16_injective hid, ?_⟩
    rw [hruntime _ _ hread', hruntime _ _ hread, ParsedEvent.fingerprintEvent,
      ParsedEvent.fingerprintEvent, htext]

end StreamPay
