import StreamPay.ReconciliationCorrections

/-! Runs over well-formed records: each ends, makes the corrections of the
segment it scans and leaves the checkpoint of the place where it stops. -/
namespace StreamPay

/-- How a run ends: without reading a batch, in front of a record, or at the end. -/
inductive RunEnd
  | idle
  | stopped (cursor : ℕ)
  | complete
  deriving DecidableEq

/-- Where a run from `start` ends that may read a number of batches. -/
def runEnd (length batchSize start : ℕ) : Option ℕ → RunEnd
  | some 0 => .idle
  | some (n+1) =>
    if start+(n+1)*batchSize < length then .stopped (start+(n+1)*batchSize) else .complete
  | none => .complete

def RunEnd.isComplete : RunEnd → Bool
  | .complete => true
  | _ => false

/-- The end of a run whose first batch led to `cursor` and whose rest ended so. -/
def RunEnd.after (cursor : ℕ) : RunEnd → RunEnd
  | .idle => .stopped cursor
  | rest => rest

def RunEnd.scanned (records : List ReconciliationRecord) (start : ℕ) :
    RunEnd → List ReconciliationRecord
  | .idle => []
  | .stopped cursor => (records.drop start).take (cursor-start)
  | .complete => records.drop start

theorem RunEnd.isComplete_after (ending : RunEnd) (cursor : ℕ) :
    (ending.after cursor).isComplete = ending.isComplete := by
  cases ending <;> rfl

def ReconciliationConfig.batchesLeft (config : ReconciliationConfig) (batches : ℕ) : Option ℕ :=
  config.maxBatches.natsBelow.map (·-batches)

/-- The corrections a run makes in a segment. -/
def ReconciliationConfig.corrects (config : ReconciliationConfig) (processed : List String)
    (records : List ReconciliationRecord) : List ReconciliationMismatch :=
  if config.mode = .dryRun then [] else corrections config.jobId processed records

theorem natLt_iff_batchesLeft (config : ReconciliationConfig) (batches : ℕ) :
    JsNumber.natLt batches config.maxBatches = true ↔ config.batchesLeft batches ≠ some 0 := by
  rw [JsNumber.natLt_iff, ReconciliationConfig.batchesLeft]
  cases config.maxBatches.natsBelow with
  | none => simp
  | some m =>
    simp only [Option.some.injEq, forall_eq', Option.map_some, ne_eq]
    omega

/-- One batch further, the rest of the run ends where the run does. -/
theorem runEnd_of_more {length batchSize start : ℕ} (hmore : start+batchSize < length)
    (config : ReconciliationConfig) (batches : ℕ) (hleft : config.batchesLeft batches ≠ some 0) :
    runEnd length batchSize start (config.batchesLeft batches) =
      (runEnd length batchSize (start+batchSize) (config.batchesLeft (batches+1))).after
        (start+batchSize) := by
  unfold ReconciliationConfig.batchesLeft at hleft ⊢
  cases hm : config.maxBatches.natsBelow with
  | none => rfl
  | some m =>
    rw [hm] at hleft
    obtain ⟨n,hn⟩ : ∃ n, m-batches = n+1 :=
      Nat.exists_eq_succ_of_ne_zero fun h => hleft (congrArg some h)
    have hn' : m-(batches+1) = n := by omega
    simp only [Option.map_some, hn, hn']
    cases n with
    | zero => simp [runEnd, hmore, RunEnd.after]
    | succ n =>
      have hmul : start+(n+1+1)*batchSize = start+batchSize+(n+1)*batchSize := by
        rw [Nat.succ_mul (n+1), ← Nat.add_assoc, Nat.add_right_comm]
      simp only [runEnd, hmul]
      split_ifs <;> rfl

theorem runEnd_stopped {length batchSize start cursor : ℕ} {left : Option ℕ}
    (h : runEnd length batchSize start left = .stopped cursor) :
    start ≤ cursor ∧ cursor < length := by
  match left with
  | none => exact absurd h (by simp [runEnd])
  | some 0 => exact absurd h (by simp [runEnd])
  | some (n+1) =>
    simp only [runEnd] at h
    split_ifs at h with hlt
    obtain rfl := RunEnd.stopped.inj h
    exact ⟨Nat.le_add_right _ _, hlt⟩

theorem runEnd_of_last {length batchSize start : ℕ} (hlast : length ≤ start+batchSize)
    {left : Option ℕ} (hleft : left ≠ some 0) :
    runEnd length batchSize start left = .complete := by
  match left with
  | none => rfl
  | some 0 => exact absurd rfl hleft
  | some (n+1) =>
    have hle : batchSize ≤ (n+1)*batchSize := Nat.le_mul_of_pos_left _ (Nat.succ_pos n)
    exact if_neg (by omega)

variable {config : ReconciliationConfig} {records : List ReconciliationRecord} {st : RunState}

/-- One well-formed record: it is counted, and corrected if that is due. -/
theorem visitRecord_eq {record : ReconciliationRecord} (hwf : record.WellFormed) :
    ∃ st', visitRecord config st record = .ok st' ∧
      st'.processed = st.processed ++ correctedIds (config.corrects st.processed [record]) ∧
      passedMismatches st'.effects =
        passedMismatches st.effects ++ config.corrects st.processed [record] ∧
      st'.checkpoint.jobId = st.checkpoint.jobId := by
  obtain ⟨hid,he,ha⟩ := hwf
  obtain ⟨difference,hdiff⟩ := compareAmounts_of_isDecimal he ha
  unfold visitRecord
  simp only [hid, hdiff, Bool.false_eq_true, ↓reduceIte]
  cases difference with
  | none =>
    have hm : record.mismatch? config.jobId = none := by
      simp [ReconciliationRecord.mismatch?, hdiff]
    refine ⟨_, rfl, ?_, ?_, rfl⟩ <;>
      simp [ReconciliationConfig.corrects, corrections, hm, correctedIds]
  | some difference =>
    have hm : record.mismatch? config.jobId =
        some ⟨record, difference, makeOperationKey config.jobId record.id⟩ := by
      simp [ReconciliationRecord.mismatch?, hdiff]
    dsimp only
    -- a dry run counts, a processed id is skipped, any other is corrected
    split_ifs with hmode hp
    · refine ⟨_, rfl, ?_, ?_, rfl⟩ <;>
        simp [ReconciliationConfig.corrects, hmode, correctedIds]
    · refine ⟨_, rfl, ?_, ?_, rfl⟩ <;>
        simp [ReconciliationConfig.corrects, hmode, corrections, hm, hp, correctedIds]
    · refine ⟨_, rfl, ?_, ?_, rfl⟩ <;>
        simp [ReconciliationConfig.corrects, hmode, corrections, hm, hp, correctedIds,
          passedMismatches]

theorem ReconciliationConfig.corrects_append (processed : List String)
    (first second : List ReconciliationRecord) :
    config.corrects processed (first ++ second) = config.corrects processed first ++
      config.corrects (processed ++ correctedIds (config.corrects processed first)) second := by
  unfold ReconciliationConfig.corrects
  split_ifs
  · rfl
  · exact corrections_append config.jobId processed first second

theorem correctedIds_append (first second : List ReconciliationMismatch) :
    correctedIds (first ++ second) = correctedIds first ++ correctedIds second :=
  List.map_append

theorem visitRecords_eq (hwf : ∀ record ∈ records, record.WellFormed) :
    ∃ st', visitRecords config records st = (st', none) ∧
      st'.processed = st.processed ++ correctedIds (config.corrects st.processed records) ∧
      passedMismatches st'.effects =
        passedMismatches st.effects ++ config.corrects st.processed records ∧
      st'.checkpoint.jobId = st.checkpoint.jobId := by
  induction records generalizing st with
  | nil => exact ⟨st, rfl, by simp [ReconciliationConfig.corrects, corrections, correctedIds],
      by simp [ReconciliationConfig.corrects, corrections], rfl⟩
  | cons record rest ih =>
    obtain ⟨st',hvisit,hproc,hpass,hjob⟩ :=
      @visitRecord_eq config st record (hwf record List.mem_cons_self)
    obtain ⟨st'',hrest,hproc',hpass',hjob'⟩ :=
      @ih st' fun r hr => hwf r (List.mem_cons_of_mem _ hr)
    have happend := config.corrects_append st.processed [record] rest
    rw [List.singleton_append, ← hproc] at happend
    refine ⟨st'', by simp only [visitRecords, hvisit, hrest], ?_, ?_, hjob'.trans hjob⟩
    · rw [hproc', happend, correctedIds_append, ← List.append_assoc, ← hproc]
    · rw [hpass', hpass, happend, List.append_assoc]

/-- The last effect of a run was to save where it stands. -/
def RunState.Saved (st : RunState) (nextCursor : Option ℕ) : Prop :=
  ∃ effects checkpoint, st.effects = effects ++ [.save checkpoint] ∧
    checkpoint.jobId = st.checkpoint.jobId ∧ checkpoint.nextCursor = nextCursor ∧
    checkpoint.processedIds = sortedIds st.processed

def RunState.Left (st st' : RunState) : RunEnd → Prop
  | .idle => st' = st
  | .stopped cursor => st'.Saved (some cursor)
  | .complete => st'.Saved none

theorem endBatch_saved (nextCursor : Option ℕ) : (endBatch nextCursor st).Saved nextCursor :=
  ⟨st.effects, _, rfl, rfl, rfl, rfl⟩

theorem passedMismatches_endBatch (nextCursor : Option ℕ) :
    passedMismatches (endBatch nextCursor st).effects = passedMismatches st.effects := by
  rw [endBatch, passedMismatches_append]
  exact List.append_nil _

theorem readBatch_of_more {cursor : Option ℕ} {b : ℕ} (h : cursor.getD 0+b < records.length) :
    readBatch records cursor b =
      ⟨(records.drop (cursor.getD 0)).take b, some (cursor.getD 0+b)⟩ := by
  have hlen : ((records.drop (cursor.getD 0)).take b).length = b := by
    rw [List.length_take, List.length_drop]
    omega
  simp only [readBatch, hlen, h, ↓reduceIte]

theorem readBatch_of_last {cursor : Option ℕ} {b : ℕ} (h : records.length ≤ cursor.getD 0+b) :
    readBatch records cursor b = ⟨(records.drop (cursor.getD 0)).take b, none⟩ := by
  have hlen : ¬ cursor.getD 0+((records.drop (cursor.getD 0)).take b).length < records.length := by
    rw [List.length_take, List.length_drop]
    omega
  simp only [readBatch, hlen, ↓reduceIte]

/-- One pass of the loop whose batch is visited without an error. -/
theorem batchLoop_succ {st' : RunState} {fuel batches : ℕ}
    (hlt : JsNumber.natLt batches config.maxBatches = true)
    (hvisit : visitRecords config ((records.drop (st.checkpoint.nextCursor.getD 0)).take
      config.batchSize) st = (st', none)) (hb : 1 ≤ config.batchSize) :
    batchLoop records config (fuel+1) st batches =
      if st.checkpoint.nextCursor.getD 0+config.batchSize < records.length then
        batchLoop records config fuel
          (endBatch (some (st.checkpoint.nextCursor.getD 0+config.batchSize)) st') (batches+1)
      else some (endBatch none st', .ok true) := by
  have hle : ¬ ((records.drop (st.checkpoint.nextCursor.getD 0)).take config.batchSize).length >
      config.batchSize := by
    rw [List.length_take]
    omega
  by_cases hmore : st.checkpoint.nextCursor.getD 0+config.batchSize < records.length
  · have hlen : ((records.drop (st.checkpoint.nextCursor.getD 0)).take
        config.batchSize).length ≠ 0 := by
      rw [List.length_take, List.length_drop]
      omega
    rw [if_pos hmore, batchLoop]
    simp only [hlt, Bool.not_true, Bool.false_eq_true, ↓reduceIte, readBatch_of_more hmore, hle,
      hvisit, reduceCtorEq, hlen, or_self]
  · rw [if_neg hmore, batchLoop]
    simp only [hlt, Bool.not_true, Bool.false_eq_true, ↓reduceIte,
      readBatch_of_last (not_lt.mp hmore), hle, hvisit, true_or]

/-- What a run from `st` to `st'` has done, given how it ended. -/
structure RunState.Ran (config : ReconciliationConfig) (records : List ReconciliationRecord)
    (st st' : RunState) (ending : RunEnd) : Prop where
  processed : st'.processed = st.processed ++ correctedIds (config.corrects st.processed
    (ending.scanned records (st.checkpoint.nextCursor.getD 0)))
  passed : passedMismatches st'.effects = passedMismatches st.effects ++
    config.corrects st.processed (ending.scanned records (st.checkpoint.nextCursor.getD 0))
  jobId : st'.checkpoint.jobId = st.checkpoint.jobId
  left : st.Left st' ending

theorem RunState.Ran.idle (config : ReconciliationConfig) (records : List ReconciliationRecord)
    (st : RunState) : st.Ran config records st .idle := by
  have hnone : config.corrects st.processed [] = [] := by
    unfold ReconciliationConfig.corrects
    split_ifs <;> rfl
  exact ⟨by simp [RunEnd.scanned, hnone, correctedIds], by simp [RunEnd.scanned, hnone], rfl, rfl⟩

/-- A first batch and the rest of a run read the records of the whole run. -/
theorem RunEnd.scanned_after {b start : ℕ} {ending : RunEnd}
    (h : ∀ cursor, ending = .stopped cursor → start+b ≤ cursor) :
    (ending.after (start+b)).scanned records start =
      (records.drop start).take b ++ ending.scanned records (start+b) := by
  cases ending with
  | idle => simp [RunEnd.after, RunEnd.scanned]
  | stopped cursor =>
    have hle := h cursor rfl
    have hlen : cursor-start = b+(cursor-(start+b)) := by omega
    simp only [RunEnd.after, RunEnd.scanned]
    rw [hlen, List.take_add, List.drop_drop]
  | complete =>
    simp only [RunEnd.after, RunEnd.scanned]
    rw [← List.drop_drop, List.take_append_drop]

/-- A batch that was visited and ended, and what the run does after it. -/
theorem RunState.Ran.after {st₁ st' : RunState} {ending : RunEnd}
    (hproc : st₁.processed = st.processed ++ correctedIds (config.corrects st.processed
      ((records.drop (st.checkpoint.nextCursor.getD 0)).take config.batchSize)))
    (hpass : passedMismatches st₁.effects = passedMismatches st.effects ++
      config.corrects st.processed
        ((records.drop (st.checkpoint.nextCursor.getD 0)).take config.batchSize))
    (hjob : st₁.checkpoint.jobId = st.checkpoint.jobId)
    (hend : ∀ cursor, ending = .stopped cursor →
      st.checkpoint.nextCursor.getD 0+config.batchSize ≤ cursor)
    (h : (endBatch (some (st.checkpoint.nextCursor.getD 0+config.batchSize)) st₁).Ran
      config records st' ending) :
    st.Ran config records st'
      (ending.after (st.checkpoint.nextCursor.getD 0+config.batchSize)) := by
  have hscanned := @RunEnd.scanned_after records _ _ _ hend
  have happend := config.corrects_append st.processed
    ((records.drop (st.checkpoint.nextCursor.getD 0)).take config.batchSize)
    (ending.scanned records (st.checkpoint.nextCursor.getD 0+config.batchSize))
  rw [← hscanned, ← hproc] at happend
  refine ⟨?_, ?_, h.jobId.trans hjob, ?_⟩
  · rw [happend, correctedIds_append, ← List.append_assoc, ← hproc]
    exact h.processed
  · rw [happend, ← List.append_assoc, ← hpass, ← @passedMismatches_endBatch st₁ (some _)]
    exact h.passed
  · have hleft := h.left
    cases ending with
    | idle =>
      obtain rfl := hleft
      exact endBatch_saved _
    | stopped cursor => exact hleft
    | complete => exact hleft

/-- The loop over the batches ends, having scanned, corrected and saved as its
number of batches has it. -/
theorem batchLoop_eq (hwf : ∀ record ∈ records, record.WellFormed) (hb : 1 ≤ config.batchSize)
    (fuel batches : ℕ) (hfuel : records.length-st.checkpoint.nextCursor.getD 0 < fuel)
    {ending : RunEnd} (hending : runEnd records.length config.batchSize
      (st.checkpoint.nextCursor.getD 0) (config.batchesLeft batches) = ending) :
    ∃ st', batchLoop records config fuel st batches =
        some (st', .ok ending.isComplete) ∧ st.Ran config records st' ending := by
  -- on the fuel, which exceeds the records left; every full batch uses up one or more
  induction fuel generalizing st batches ending with
  | zero => omega
  | succ fuel ih =>
    by_cases hidle : config.batchesLeft batches = some 0
    · have hlt : JsNumber.natLt batches config.maxBatches = false := by
        rw [Bool.eq_false_iff, ne_eq, natLt_iff_batchesLeft, not_not, hidle]
      obtain rfl : ending = .idle := by rw [← hending, hidle]; rfl
      exact ⟨st, by simp [batchLoop, hlt, RunEnd.isComplete], .idle config records st⟩
    · have hlt := (natLt_iff_batchesLeft config batches).mpr hidle
      have hsub : ∀ record ∈ (records.drop (st.checkpoint.nextCursor.getD 0)).take
          config.batchSize, record.WellFormed :=
        fun r hr => hwf r (List.mem_of_mem_drop (List.mem_of_mem_take hr))
      obtain ⟨st₁,hvisit,hproc,hpass,hjob⟩ :=
        @visitRecords_eq config _ st hsub
      rw [batchLoop_succ hlt hvisit hb]
      split_ifs with hmore
      · have hnext := runEnd_of_more hmore config batches hidle
        obtain ⟨st',hloop,hran⟩ :=
          @ih (endBatch (some (st.checkpoint.nextCursor.getD 0+config.batchSize)) st₁)
            (batches+1) (by simp only [endBatch, Option.getD_some]; omega) _ rfl
        refine ⟨st', ?_, ?_⟩
        · rw [hloop, ← hending, hnext, RunEnd.isComplete_after]
          rfl
        · rw [← hending, hnext]
          exact .after hproc hpass hjob (fun cursor h => (runEnd_stopped h).1) hran
      · -- the last batch takes all that is left
        have hcomplete := runEnd_of_last (not_lt.mp hmore) hidle
        obtain rfl : ending = .complete := hending.symm.trans hcomplete
        have htake : (records.drop (st.checkpoint.nextCursor.getD 0)).take config.batchSize =
            records.drop (st.checkpoint.nextCursor.getD 0) :=
          List.take_of_length_le (by rw [List.length_drop]; omega)
        rw [htake] at hproc hpass
        refine ⟨_, rfl, hproc, ?_, hjob, endBatch_saved none⟩
        rw [passedMismatches_endBatch]
        exact hpass

end StreamPay
