import StreamPay.Reconciliation

/-! What a reconciliation run does, without its bookkeeping: where it starts and
stops in the records, and which corrections it makes on the way. -/
namespace StreamPay

/-- A record that a run accepts. -/
def ReconciliationRecord.WellFormed (record : ReconciliationRecord) : Prop :=
  record.id.isBlank = false ∧ isDecimal record.expectedAmount = true ∧
    isDecimal record.actualAmount = true

def ReconciliationRecord.mismatch? (jobId : String) (record : ReconciliationRecord) :
    Option ReconciliationMismatch :=
  match compareAmounts record.expectedAmount record.actualAmount with
  | .ok (some difference) => some ⟨record, difference, makeOperationKey jobId record.id⟩
  | _ => none

/-- The corrections of a segment: the first mismatch of each id that is not processed yet. -/
def corrections (jobId : String) : List String → List ReconciliationRecord →
    List ReconciliationMismatch
  | _, [] => []
  | processed, record :: rest =>
    match record.mismatch? jobId with
    | none => corrections jobId processed rest
    | some mismatch =>
      if record.id ∈ processed then corrections jobId processed rest
      else mismatch :: corrections jobId (processed ++ [record.id]) rest

def correctedIds (corrected : List ReconciliationMismatch) : List String :=
  corrected.map fun mismatch => mismatch.id

def passedMismatches (effects : List ReconciliationEffect) : List ReconciliationMismatch :=
  effects.filterMap fun
    | .applyMismatch mismatch => some mismatch
    | .save _ => none

theorem passedMismatches_append (effects effects' : List ReconciliationEffect) :
    passedMismatches (effects ++ effects') =
      passedMismatches effects ++ passedMismatches effects' :=
  List.filterMap_append

theorem record_of_mismatch? {jobId : String} {record : ReconciliationRecord}
    {mismatch : ReconciliationMismatch} (h : record.mismatch? jobId = some mismatch) :
    mismatch.toReconciliationRecord = record := by
  unfold ReconciliationRecord.mismatch? at h
  split at h
  · rw [← Option.some.inj h]
  · exact absurd h (by simp)

theorem corrections_append (jobId : String) (processed : List String)
    (first second : List ReconciliationRecord) :
    corrections jobId processed (first ++ second) = corrections jobId processed first ++
      corrections jobId (processed ++ correctedIds (corrections jobId processed first)) second := by
  induction first generalizing processed with
  | nil => simp [corrections, correctedIds]
  | cons record rest ih =>
    rw [List.cons_append, corrections, corrections]
    cases hm : record.mismatch? jobId with
    | none => exact ih processed
    | some mismatch =>
      dsimp only
      split_ifs with hp
      · exact ih processed
      · -- the id of the correction joins the processed ones of the rest
        have hid : mismatch.id = record.id := by rw [record_of_mismatch? hm]
        rw [ih, List.cons_append]
        simp only [correctedIds, List.map_cons, hid, List.append_assoc, List.singleton_append]

/-- Only which ids are processed matters, not how they are listed. -/
theorem corrections_congr (jobId : String) {processed processed' : List String}
    (h : ∀ id, id ∈ processed ↔ id ∈ processed') (records : List ReconciliationRecord) :
    corrections jobId processed records = corrections jobId processed' records := by
  induction records generalizing processed processed' with
  | nil => rfl
  | cons record rest ih =>
    rw [corrections, corrections]
    cases hm : record.mismatch? jobId with
    | none => exact ih h
    | some mismatch =>
      dsimp only
      by_cases hp : record.id ∈ processed
      · rw [if_pos hp, if_pos ((h _).mp hp), ih h]
      · have hids (id : String) :
            id ∈ processed ++ [record.id] ↔ id ∈ processed' ++ [record.id] := by
          rw [List.mem_append, List.mem_append, h id]
        rw [if_neg hp, if_neg fun hp' => hp ((h _).mpr hp'), ih hids]

def firstMismatch (records : List ReconciliationRecord) (id : String) :
    Option ReconciliationRecord :=
  records.find? fun record => record.id = id && (record.mismatch? "").isSome

theorem mismatch?_isSome (jobId jobId' : String) (record : ReconciliationRecord) :
    (record.mismatch? jobId).isSome = (record.mismatch? jobId').isSome := by
  unfold ReconciliationRecord.mismatch?
  split <;> rfl

/-- The corrections are those of the first mismatch of each unprocessed id. -/
theorem mem_corrections {jobId : String} {processed : List String}
    {records : List ReconciliationRecord} {mismatch : ReconciliationMismatch} :
    mismatch ∈ corrections jobId processed records ↔ mismatch.id ∉ processed ∧
      ∃ record, firstMismatch records mismatch.id = some record ∧
        record.mismatch? jobId = some mismatch := by
  induction records generalizing processed with
  | nil => simp [corrections, firstMismatch]
  | cons record rest ih =>
    rw [corrections]
    have hsome := mismatch?_isSome "" jobId record
    cases hm : record.mismatch? jobId with
    | none =>
      have hfirst : firstMismatch (record :: rest) mismatch.id = firstMismatch rest mismatch.id := by
        rw [firstMismatch, List.find?_cons_of_neg (by simp [hsome, hm]), firstMismatch]
      rw [hfirst]
      exact ih
    | some found =>
      have hid : found.id = record.id := by rw [record_of_mismatch? hm]
      dsimp only
      by_cases hr : record.id = mismatch.id
      · have hfirst : firstMismatch (record :: rest) mismatch.id = some record := by
          rw [firstMismatch, List.find?_cons_of_pos (by simp [hsome, hm, hr])]
        rw [hfirst]
        by_cases hp : record.id ∈ processed
        · rw [if_pos hp, ih]
          exact iff_of_false (fun h => h.1 (hr ▸ hp)) fun h => h.1 (hr ▸ hp)
        · rw [if_neg hp, List.mem_cons, ih]
          simp only [hr, List.mem_append, List.mem_singleton, or_true, not_true_eq_false,
            false_and, or_false, Option.some.injEq, exists_eq_left', hm]
          rw [hr] at hp
          rw [and_iff_right hp]
          exact eq_comm
      · have hfirst : firstMismatch (record :: rest) mismatch.id =
            firstMismatch rest mismatch.id := by
          rw [firstMismatch, List.find?_cons_of_neg (by simp [hr]), firstMismatch]
        rw [hfirst]
        have hne : mismatch ≠ found := fun he => hr (by rw [he, hid])
        split_ifs with hp
        · exact ih
        · rw [List.mem_cons, ih]
          simp [hne, Ne.symm hr]

/-- What is still to be corrected of an id. -/
def pendingMismatch (processed : List String) (records : List ReconciliationRecord) (id : String) :
    Option ReconciliationRecord :=
  if id ∈ processed then none else firstMismatch records id

theorem mem_corrections_iff_pending {jobId : String} {processed : List String}
    {records : List ReconciliationRecord} {mismatch : ReconciliationMismatch} :
    mismatch ∈ corrections jobId processed records ↔
      ∃ record, pendingMismatch processed records mismatch.id = some record ∧
        record.mismatch? jobId = some mismatch := by
  rw [mem_corrections, pendingMismatch]
  split_ifs with hp <;> simp [hp]

theorem mismatch?_of_pending {processed : List String} {records : List ReconciliationRecord}
    {id : String} {record : ReconciliationRecord}
    (h : pendingMismatch processed records id = some record) (jobId : String) :
    record.id = id ∧ ∃ mismatch, record.mismatch? jobId = some mismatch := by
  unfold pendingMismatch at h
  split_ifs at h
  have hfound := List.find?_some h
  rw [Bool.and_eq_true, decide_eq_true_eq, mismatch?_isSome "" jobId] at hfound
  exact ⟨hfound.1, Option.isSome_iff_exists.mp hfound.2⟩

/-- Two segments need the same corrections exactly when the same is pending of every id. -/
theorem same_corrections_iff (jobId : String) (processed processed' : List String)
    (records records' : List ReconciliationRecord) :
    (∀ mismatch, mismatch ∈ corrections jobId processed records ↔
        mismatch ∈ corrections jobId processed' records') ↔
      ∀ id, pendingMismatch processed records id = pendingMismatch processed' records' id := by
  constructor
  · intro h id
    have hle {p p' : List String} {rs rs' : List ReconciliationRecord}
        (hsub : ∀ mismatch ∈ corrections jobId p rs, mismatch ∈ corrections jobId p' rs')
        {record : ReconciliationRecord} (hr : pendingMismatch p rs id = some record) :
        pendingMismatch p' rs' id = some record := by
      obtain ⟨hid,mismatch,hm⟩ := mismatch?_of_pending hr jobId
      have hrec := record_of_mismatch? hm
      have hmid : mismatch.id = id := by rw [hrec, hid]
      have hmem := hsub mismatch (mem_corrections_iff_pending.mpr ⟨record, hmid.symm ▸ hr, hm⟩)
      obtain ⟨record',hr',hm'⟩ := mem_corrections_iff_pending.mp hmem
      rw [hmid] at hr'
      rw [hr', ← record_of_mismatch? hm', hrec]
    cases hr : pendingMismatch processed records id with
    | some record => exact (hle (fun m => (h m).mp) hr).symm
    | none =>
      cases hr' : pendingMismatch processed' records' id with
      | none => rfl
      | some record => exact absurd (hle (fun m => (h m).mpr) hr') (by simp [hr])
  · intro h mismatch
    rw [mem_corrections_iff_pending, mem_corrections_iff_pending, h]

end StreamPay
