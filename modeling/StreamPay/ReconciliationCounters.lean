import StreamPay.ReconciliationResumption

/-! The counters of a job whose apply runs are interrupted at one of their
corrections, and resumed until one returns complete. -/
namespace StreamPay
open Interleaving

/-- The effects before correction number `k`, counted from 0. -/
def upToCorrection : ℕ → List ReconciliationEffect → Option (List ReconciliationEffect)
  | _, [] => none
  | 0, .applyMismatch _ :: _ => some []
  | k+1, .applyMismatch mismatch :: rest =>
    (upToCorrection k rest).map (.applyMismatch mismatch :: ·)
  | k, .save checkpoint :: rest => (upToCorrection k rest).map (.save checkpoint :: ·)

/-- An apply run whose call of `applyMismatch` for correction number `correction`
throws. Whether that call has taken effect does not matter to the checkpoint. -/
structure InterruptedRun extends ApplyRun where
  correction : ℕ

def interrupt (records : List ReconciliationRecord) (jobId : String)
    (store : InMemoryCheckpointStore) (run : InterruptedRun) : Option InMemoryCheckpointStore :=
  (ReconciliationService.run records store (run.options jobId)).bind fun (effects,_) =>
    (upToCorrection run.correction effects).map store.perform

/-- The number of records whose amounts differ. -/
def differing (jobId : String) (records : List ReconciliationRecord) : ℕ :=
  records.countP fun record => (record.mismatch? jobId).isSome

/-- The correction is the first one of a batch: so many have been made in some
number of batches before. -/
def FirstOfBatch (jobId : String) (batchSize : ℕ) (processed : List String)
    (rest : List ReconciliationRecord) (correction : ℕ) : Prop :=
  ∃ batches, (corrections jobId processed (rest.take (batches*batchSize))).length = correction

/-- The run is interrupted at the first correction of a batch. -/
def InterruptedRun.AtFirstOfBatch (records : List ReconciliationRecord) (jobId : String)
    (store : InMemoryCheckpointStore) (run : InterruptedRun) : Prop :=
  ∃ batchSize, normalizeBatchSize run.batchSize = some batchSize ∧
    FirstOfBatch jobId batchSize (store.position jobId).processed
      (records.drop (store.position jobId).start) run.correction

/-- The counters are those of the first `n` records if `exact` holds, and too
high if not. -/
def Tallied (records : List ReconciliationRecord) (jobId : String) (n : ℕ) (exact : Prop)
    (checkpoint : ReconciliationCheckpoint) : Prop :=
  (exact → checkpoint.scanned = n ∧ checkpoint.mismatches = differing jobId (records.take n)) ∧
  (¬ exact → n < checkpoint.scanned)

section
variable {jobId : String} {batchSize : ℕ} {processed : List String}
  {rest : List ReconciliationRecord} {k : ℕ}

theorem length_corrections_take_le (jobId : String) (processed : List String)
    (rest : List ReconciliationRecord) {m n : ℕ} (h : m ≤ n) :
    (corrections jobId processed (rest.take m)).length ≤
      (corrections jobId processed (rest.take n)).length := by
  obtain ⟨d,rfl⟩ := Nat.exists_eq_add_of_le h
  rw [List.take_add, corrections_append, List.length_append]
  exact Nat.le_add_right _ _

/-- Within the first batch only its first correction is the first of a batch. -/
theorem firstOfBatch_iff_zero
    (hk : k < (corrections jobId processed (rest.take batchSize)).length) :
    FirstOfBatch jobId batchSize processed rest k ↔ k = 0 := by
  constructor
  · rintro ⟨batches,hbatches⟩
    cases batches with
    | zero =>
      rw [Nat.zero_mul] at hbatches
      exact hbatches.symm
    | succ n =>
      have hle := length_corrections_take_le jobId processed rest
        (show batchSize ≤ (n+1)*batchSize from Nat.le_mul_of_pos_left _ (Nat.succ_pos n))
      omega
  · rintro rfl
    exact ⟨0, by rw [Nat.zero_mul]; rfl⟩

/-- Behind the first batch the batches are those of the rest. -/
theorem firstOfBatch_iff_rest {first : List ReconciliationMismatch}
    (hfirst : corrections jobId processed (rest.take batchSize) = first) :
    FirstOfBatch jobId batchSize processed rest (first.length+k) ↔
      FirstOfBatch jobId batchSize (processed ++ correctedIds first) (rest.drop batchSize) k := by
  have hsplit (n : ℕ) : (corrections jobId processed (rest.take ((n+1)*batchSize))).length =
      first.length + (corrections jobId (processed ++ correctedIds first)
        ((rest.drop batchSize).take (n*batchSize))).length := by
    rw [Nat.succ_mul, Nat.add_comm, List.take_add, corrections_append, hfirst, List.length_append]
  constructor
  · rintro ⟨batches,hbatches⟩
    cases batches with
    | zero =>
      rw [Nat.zero_mul] at hbatches
      have hzero : 0 = first.length+k := hbatches
      exact ⟨0, by rw [Nat.zero_mul]; change 0 = k; omega⟩
    | succ n => exact ⟨n, by have := hsplit n; omega⟩
  · rintro ⟨n,hn⟩
    exact ⟨n+1, by rw [hsplit, hn]⟩

end

theorem lt_of_upToCorrection {k : ℕ} {effects taken : List ReconciliationEffect}
    (h : upToCorrection k effects = some taken) : k < (passedMismatches effects).length := by
  induction effects generalizing k taken with
  | nil => cases h
  | cons effect rest ih =>
    cases effect with
    | save checkpoint =>
      obtain ⟨cut,hcut,_⟩ := Option.map_eq_some_iff.mp (by simpa only [upToCorrection] using h)
      exact ih hcut
    | applyMismatch mismatch =>
      cases k with
      | zero => exact Nat.succ_pos _
      | succ k =>
        obtain ⟨cut,hcut,_⟩ := Option.map_eq_some_iff.mp h
        exact Nat.succ_lt_succ (ih hcut)

/-- A correction among the first effects is found there. -/
theorem upToCorrection_left {k : ℕ} {effects more : List ReconciliationEffect}
    (hk : k < (passedMismatches effects).length) :
    upToCorrection k (effects ++ more) = upToCorrection k effects := by
  induction effects generalizing k with
  | nil => cases hk
  | cons effect rest ih =>
    cases effect with
    | save checkpoint =>
      simp only [List.cons_append, upToCorrection]
      rw [ih hk]
    | applyMismatch mismatch =>
      cases k with
      | zero => rfl
      | succ k =>
        simp only [List.cons_append, upToCorrection]
        rw [ih (Nat.lt_of_succ_lt_succ hk)]

/-- Any later one is found among the others. -/
theorem upToCorrection_right (k : ℕ) (effects more : List ReconciliationEffect) :
    upToCorrection ((passedMismatches effects).length+k) (effects ++ more) =
      (upToCorrection k more).map (effects ++ ·) := by
  induction effects with
  | nil => simp [passedMismatches]
  | cons effect rest ih =>
    cases effect with
    | save checkpoint =>
      have hcount : (passedMismatches (.save checkpoint :: rest)).length =
          (passedMismatches rest).length := rfl
      simp only [List.cons_append, upToCorrection, hcount]
      rw [ih, Option.map_map]
      rfl
    | applyMismatch mismatch =>
      have hcount : (passedMismatches (.applyMismatch mismatch :: rest)).length+k =
          (passedMismatches rest).length+k+1 := Nat.succ_add _ _
      simp only [List.cons_append, hcount, upToCorrection]
      rw [ih, Option.map_map]
      rfl

/-- The checkpoint that the last save among the effects has left. -/
def savedAfter : ReconciliationCheckpoint → List ReconciliationEffect → ReconciliationCheckpoint
  | checkpoint, [] => checkpoint
  | checkpoint, .applyMismatch _ :: rest => savedAfter checkpoint rest
  | _, .save checkpoint :: rest => savedAfter checkpoint rest

theorem savedAfter_append (checkpoint : ReconciliationCheckpoint)
    (effects more : List ReconciliationEffect) :
    savedAfter checkpoint (effects ++ more) = savedAfter (savedAfter checkpoint effects) more := by
  induction effects generalizing checkpoint with
  | nil => rfl
  | cons effect rest ih =>
    cases effect with
    | applyMismatch mismatch => exact ih checkpoint
    | save saved => exact ih saved

/-- Records that are visited one after the other without an error. -/
inductive Visits (jobId : String) : RunState → List ReconciliationRecord → RunState → Prop
  | nil (st : RunState) : Visits jobId st [] st
  | cons {st st' st'' : RunState} {record : ReconciliationRecord}
      {rest : List ReconciliationRecord} : Visit jobId st record st' → Visits jobId st' rest st'' →
      Visits jobId st (record :: rest) st''

theorem visits_of_visitRecords {config : ReconciliationConfig} (hmode : config.mode = .apply)
    {batch : List ReconciliationRecord} {st st' : RunState}
    {error : Option ReconciliationInputError}
    (h : visitRecords config batch st = (st', error)) :
    ∃ visited left, batch = visited ++ left ∧ Visits config.jobId st visited st' ∧
      (error = none → left = []) := by
  induction batch generalizing st with
  | nil =>
    obtain ⟨rfl,rfl⟩ := Prod.mk.inj h
    exact ⟨[], [], rfl, .nil st, fun _ => rfl⟩
  | cons record rest ih =>
    simp only [visitRecords] at h
    split at h
    · obtain ⟨rfl,rfl⟩ := Prod.mk.inj h
      exact ⟨[], record :: rest, rfl, .nil st, fun hnone => by cases hnone⟩
    · rename_i next hnext
      obtain ⟨visited,left,rfl,hvisits,hall⟩ := ih h
      exact ⟨record :: visited, left, rfl, .cons (visit_of_visitRecord hmode hnext) hvisits, hall⟩

/-- The effects of visiting some records: each correction but the first is cut
off behind a checkpoint that counts records behind its cursor. -/
structure VisitEffects (jobId : String) (st : RunState) (visited : List ReconciliationRecord)
    (effects : List ReconciliationEffect) : Prop where
  own : ∀ checkpoint, .save checkpoint ∈ effects → checkpoint.jobId = st.checkpoint.jobId
  passed : passedMismatches effects = corrections jobId st.processed visited
  first : ∀ taken, upToCorrection 0 effects = some taken → taken = []
  later : ∀ k taken saved, upToCorrection (k+1) effects = some taken →
    (savedAfter saved taken).nextCursor = st.checkpoint.nextCursor ∧
    st.checkpoint.scanned < (savedAfter saved taken).scanned

/-- The counters and the processed ids after visiting some records. -/
structure Visited (jobId : String) (st st' : RunState) (visited : List ReconciliationRecord) :
    Prop where
  own : st'.checkpoint.jobId = st.checkpoint.jobId
  cursor : st'.checkpoint.nextCursor = st.checkpoint.nextCursor
  scanned : st'.checkpoint.scanned = st.checkpoint.scanned+visited.length
  mismatches : st'.checkpoint.mismatches = st.checkpoint.mismatches+differing jobId visited
  processed : st'.processed = st.processed ++ correctedIds (corrections jobId st.processed visited)

theorem Visit.visited {jobId : String} {st st' : RunState} {record : ReconciliationRecord}
    (h : Visit jobId st record st') : Visited jobId st st' [record] := by
  -- a mismatch is counted whether it is corrected or was before
  have hcount : differing jobId [record] = if (record.mismatch? jobId).isSome then 1 else 0 :=
    List.countP_singleton
  cases h with
  | equal hm =>
    rw [hm] at hcount
    refine ⟨rfl, rfl, rfl, by rw [hcount]; rfl, ?_⟩
    rw [corrections, hm]
    exact (List.append_nil _).symm
  | skipped mismatch hm hp =>
    rw [hm] at hcount
    refine ⟨rfl, rfl, rfl, by rw [hcount]; rfl, ?_⟩
    simp only [corrections, hm, hp, ↓reduceIte]
    exact (List.append_nil _).symm
  | corrected mismatch checkpoint hm hp hcheckpoint =>
    rw [hm] at hcount
    have hid : mismatch.id = record.id := by rw [record_of_mismatch? hm]
    subst hcheckpoint
    refine ⟨rfl, rfl, rfl, by rw [hcount]; rfl, ?_⟩
    simp only [corrections, hm, hp, ↓reduceIte, correctedIds, List.map_cons, List.map_nil, hid]

theorem Visited.trans {jobId : String} {st st' st'' : RunState}
    {first second : List ReconciliationRecord} (h : Visited jobId st st' first)
    (h' : Visited jobId st' st'' second) : Visited jobId st st'' (first ++ second) where
  own := h'.own.trans h.own
  cursor := h'.cursor.trans h.cursor
  scanned := by rw [h'.scanned, h.scanned, List.length_append, Nat.add_assoc]
  mismatches := by
    rw [h'.mismatches, h.mismatches, differing, differing, differing, List.countP_append,
      Nat.add_assoc]
  processed := by
    rw [h'.processed, h.processed, corrections_append, correctedIds, correctedIds, correctedIds,
      List.map_append, List.append_assoc]

theorem Visits.visited {jobId : String} {st st' : RunState} {visited : List ReconciliationRecord}
    (h : Visits jobId st visited st') : Visited jobId st st' visited := by
  induction h with
  | nil st => exact ⟨rfl, rfl, rfl, rfl, (List.append_nil _).symm⟩
  | cons hvisit _ ih => exact hvisit.visited.trans ih

theorem Visits.effects {jobId : String} {st st' : RunState} {visited : List ReconciliationRecord}
    (h : Visits jobId st visited st') : ∃ effects, st'.effects = st.effects ++ effects ∧
      VisitEffects jobId st visited effects := by
  induction h with
  | nil st => exact ⟨[], (List.append_nil _).symm, by simp, rfl, by simp [upToCorrection], by
      simp [upToCorrection]⟩
  | @cons st next st' record rest hvisit _ ih =>
    obtain ⟨effects,heffects,hrest⟩ := ih
    cases hvisit with
    | equal hm =>
      refine ⟨effects, heffects, hrest.own, ?_, hrest.first, fun k taken saved htaken => ?_⟩
      · rw [hrest.passed, corrections, hm]
      · obtain ⟨hcursor,hlt⟩ := hrest.later k taken saved htaken
        exact ⟨hcursor, Nat.lt_of_succ_lt hlt⟩
    | skipped mismatch hm hp =>
      refine ⟨effects, heffects, hrest.own, ?_, hrest.first, fun k taken saved htaken => ?_⟩
      · rw [hrest.passed, corrections, hm]
        simp only [hp, ↓reduceIte]
      · obtain ⟨hcursor,hlt⟩ := hrest.later k taken saved htaken
        exact ⟨hcursor, Nat.lt_of_succ_lt hlt⟩
    | corrected mismatch checkpoint hm hp hcheckpoint =>
      have hsaved : checkpoint.nextCursor = st.checkpoint.nextCursor ∧
          checkpoint.scanned = st.checkpoint.scanned+1 := by
        rw [hcheckpoint]
        exact ⟨rfl, rfl⟩
      have hown : checkpoint.jobId = st.checkpoint.jobId := by rw [hcheckpoint]
      refine ⟨.applyMismatch mismatch :: .save checkpoint :: effects, ?_, ?_, ?_, ?_, ?_⟩
      · rw [heffects, List.append_assoc]
        rfl
      · intro other hother
        simp only [List.mem_cons, reduceCtorEq, false_or, ReconciliationEffect.save.injEq] at hother
        rcases hother with rfl | hother
        · exact hown
        · exact (hrest.own other hother).trans hown
      · rw [corrections, hm]
        simp only [hp, ↓reduceIte]
        exact congrArg (mismatch :: ·) hrest.passed
      · intro taken htaken
        exact (Option.some.inj htaken).symm
      · intro k taken saved htaken
        simp only [upToCorrection, Option.map_map, Option.map_eq_some_iff] at htaken
        obtain ⟨cut,hcut,rfl⟩ := htaken
        change (savedAfter checkpoint cut).nextCursor = _ ∧ _ < (savedAfter checkpoint cut).scanned
        -- the next correction follows this save, a later one a save behind it
        cases k with
        | zero =>
          rw [hrest.first cut hcut]
          exact ⟨hsaved.1, by rw [savedAfter, hsaved.2]; exact Nat.lt_succ_self _⟩
        | succ k =>
          obtain ⟨hcursor,hlt⟩ := hrest.later k cut checkpoint hcut
          refine ⟨hcursor.trans hsaved.1, ?_⟩
          have hlt' : checkpoint.scanned < (savedAfter checkpoint cut).scanned := hlt
          omega

section
variable {records : List ReconciliationRecord} {jobId : String} {exact : Prop}
  {config : ReconciliationConfig} {st st' : RunState}

/-- Where the counters stand against the cursor of a saved checkpoint. -/
def TalliedAtCursor (records : List ReconciliationRecord) (jobId : String) (exact : Prop)
    (checkpoint : ReconciliationCheckpoint) : Prop :=
  checkpoint.nextCursor.getD 0 ≤ records.length ∧
  Tallied records jobId (checkpoint.nextCursor.getD 0) exact checkpoint

theorem Tallied.visited {n : ℕ} {visited : List ReconciliationRecord}
    (h : Tallied records jobId n exact st.checkpoint) (hvisited : Visited jobId st st' visited)
    (hrecords : visited <+: records.drop n) :
    Tallied records jobId (n+visited.length) exact st'.checkpoint := by
  have htake : records.take (n+visited.length) = records.take n ++ visited := by
    rw [List.take_add, ← List.prefix_iff_eq_take.mp hrecords]
  refine ⟨fun hexact => ?_, fun hmore => ?_⟩
  · obtain ⟨hscanned,hmismatches⟩ := h.1 hexact
    refine ⟨by rw [hvisited.scanned, hscanned], ?_⟩
    rw [hvisited.mismatches, hmismatches, htake, differing, differing, differing,
      List.countP_append]
  · have hlt := h.2 hmore
    have hscanned := hvisited.scanned
    omega

def ReconciliationCheckpoint.SameCounts (saved checkpoint : ReconciliationCheckpoint) : Prop :=
  saved.nextCursor = checkpoint.nextCursor ∧ saved.scanned = checkpoint.scanned ∧
  saved.mismatches = checkpoint.mismatches

/-- A run cut off within its first batch: only in front of the first correction
the last checkpoint agrees with its cursor. -/
theorem tallied_within {visited : List ReconciliationRecord}
    {effects taken : List ReconciliationEffect} {saved : ReconciliationCheckpoint} {k : ℕ}
    (heffects : VisitEffects jobId st visited effects)
    (hsaved : saved.SameCounts st.checkpoint)
    (htallied : TalliedAtCursor records jobId exact saved)
    (htaken : upToCorrection k effects = some taken) :
    TalliedAtCursor records jobId (exact ∧ k = 0) (savedAfter saved taken) := by
  cases k with
  | zero =>
    rw [heffects.first taken htaken]
    simpa [savedAfter] using htallied
  | succ k =>
    obtain ⟨hcursor,hlt⟩ := heffects.later k taken saved htaken
    -- the counters are never behind the cursor, and now they are before it
    have hle : saved.nextCursor.getD 0 ≤ saved.scanned := by
      by_cases hexact : exact
      · exact (htallied.2.1 hexact).1.ge
      · exact (htallied.2.2 hexact).le
    rw [← hsaved.1] at hcursor
    have hscanned := hsaved.2.1
    refine ⟨by rw [hcursor]; exact htallied.1, fun hfalse => by omega, fun _ => ?_⟩
    rw [hcursor]
    omega

/-- What one pass of the loop over the batches comes to. -/
inductive BatchPass (records : List ReconciliationRecord) (config : ReconciliationConfig)
    (fuel count : ℕ) (st : RunState) : RunState → Except ReconciliationInputError Bool → Prop
  | idle : BatchPass records config fuel count st st (.ok false)
  | failed {st' : RunState} {visited left : List ReconciliationRecord}
      (error : ReconciliationInputError) :
      (records.drop (st.checkpoint.nextCursor.getD 0)).take config.batchSize = visited ++ left →
      Visits config.jobId st visited st' → BatchPass records config fuel count st st' (.error error)
  | last {st₁ : RunState} : records.length ≤ st.checkpoint.nextCursor.getD 0+config.batchSize →
      Visits config.jobId st
        ((records.drop (st.checkpoint.nextCursor.getD 0)).take config.batchSize) st₁ →
      BatchPass records config fuel count st (endBatch none st₁) (.ok true)
  | more {st₁ st' : RunState} {outcome : Except ReconciliationInputError Bool} :
      st.checkpoint.nextCursor.getD 0+config.batchSize < records.length →
      Visits config.jobId st
        ((records.drop (st.checkpoint.nextCursor.getD 0)).take config.batchSize) st₁ →
      batchLoop records config fuel
        (endBatch (some (st.checkpoint.nextCursor.getD 0+config.batchSize)) st₁) (count+1) =
          some (st', outcome) →
      BatchPass records config fuel count st st' outcome

theorem batchPass_of_batchLoop (hmode : config.mode = .apply) (hb : 1 ≤ config.batchSize)
    {fuel count : ℕ} {outcome : Except ReconciliationInputError Bool}
    (h : batchLoop records config (fuel+1) st count = some (st', outcome)) :
    BatchPass records config fuel count st st' outcome := by
  cases hlt : JsNumber.natLt count config.maxBatches with
  | false =>
    -- the run has had its batches
    simp only [batchLoop, hlt, Bool.not_false, ↓reduceIte, Option.some.injEq, Prod.mk.injEq] at h
    obtain ⟨rfl,rfl⟩ := h
    exact .idle
  | true =>
    cases hvisit : visitRecords config
        ((records.drop (st.checkpoint.nextCursor.getD 0)).take config.batchSize) st with
    | mk st₁ error =>
      obtain ⟨visited,left,hbatch,hvisits,hall⟩ := visits_of_visitRecords hmode hvisit
      cases error with
      | some error =>
        have hlen : ¬ ((records.drop (st.checkpoint.nextCursor.getD 0)).take
            config.batchSize).length > config.batchSize := by
          rw [List.length_take]
          omega
        have hread : (readBatch records st.checkpoint.nextCursor config.batchSize).records =
            (records.drop (st.checkpoint.nextCursor.getD 0)).take config.batchSize := rfl
        simp only [batchLoop, hlt, Bool.not_true, Bool.false_eq_true, ↓reduceIte, hread, hlen,
          hvisit, Option.some.injEq, Prod.mk.injEq] at h
        obtain ⟨rfl,rfl⟩ := h
        exact .failed error hbatch hvisits
      | none =>
        rw [hall rfl, List.append_nil] at hbatch
        rw [← hbatch] at hvisits
        rw [batchLoop_succ hlt hvisit hb] at h
        split_ifs at h with hmore
        · exact .more hmore hvisits h
        · obtain ⟨rfl,rfl⟩ := Prod.mk.inj (Option.some.inj h)
          exact .last (not_lt.mp hmore) hvisits

theorem endBatch_save (nextCursor : Option ℕ) (st : RunState) :
    ∃ saved, (endBatch nextCursor st).effects = st.effects ++ [.save saved] ∧
      saved.jobId = st.checkpoint.jobId ∧ saved.SameCounts (endBatch nextCursor st).checkpoint :=
  ⟨_, rfl, rfl, rfl, rfl, rfl⟩

theorem TalliedAtCursor.congr {saved checkpoint : ReconciliationCheckpoint}
    (h : TalliedAtCursor records jobId exact saved) (hsame : saved.SameCounts checkpoint) :
    TalliedAtCursor records jobId exact checkpoint := by
  obtain ⟨hcursor,hscanned,hmismatches⟩ := hsame
  rw [TalliedAtCursor, Tallied, ← hcursor, ← hscanned, ← hmismatches]
  exact h

/-- A batch of which there are more to come leaves the counters as they were
against the cursor. -/
theorem TalliedAtCursor.endBatch {st₁ : RunState} {b : ℕ}
    (h : TalliedAtCursor records jobId exact st.checkpoint)
    (hmore : st.checkpoint.nextCursor.getD 0+b < records.length)
    (hvisited : Visited jobId st st₁ ((records.drop (st.checkpoint.nextCursor.getD 0)).take b)) :
    TalliedAtCursor records jobId exact
      (endBatch (some (st.checkpoint.nextCursor.getD 0+b)) st₁).checkpoint := by
  have hlen : ((records.drop (st.checkpoint.nextCursor.getD 0)).take b).length = b := by
    rw [List.length_take, List.length_drop]
    omega
  have htallied := h.2.visited hvisited (List.take_prefix _ _)
  rw [hlen] at htallied
  exact ⟨hmore.le, htallied⟩

/-- The loop cut off at a correction: the last checkpoint agrees with its cursor
exactly if it did before and the correction is the first of its batch. -/
theorem interrupted_batches (hmode : config.mode = .apply) (hb : 1 ≤ config.batchSize)
    {fuel count : ℕ} {outcome : Except ReconciliationInputError Bool}
    (h : batchLoop records config fuel st count = some (st', outcome)) :
    ∃ effects, st'.effects = st.effects ++ effects ∧
      (∀ checkpoint, .save checkpoint ∈ effects → checkpoint.jobId = st.checkpoint.jobId) ∧
      ∀ exact saved k taken, saved.SameCounts st.checkpoint →
        TalliedAtCursor records config.jobId exact saved →
        upToCorrection k effects = some taken →
        TalliedAtCursor records config.jobId (exact ∧ FirstOfBatch config.jobId config.batchSize
          st.processed (records.drop (st.checkpoint.nextCursor.getD 0)) k)
          (savedAfter saved taken) := by
  -- on the fuel: the correction is in the first batch, or in one behind it
  induction fuel generalizing st count with
  | zero => cases h
  | succ fuel ih =>
    cases batchPass_of_batchLoop hmode hb h with
    | idle => exact ⟨[], (List.append_nil _).symm, by simp, by simp [upToCorrection]⟩
    | failed error hbatch hvisits =>
      rename_i visited left
      obtain ⟨effects,heffects,hvisit⟩ := hvisits.effects
      refine ⟨effects, heffects, hvisit.own, fun exact saved k taken hsame htallied htaken => ?_⟩
      have hk := lt_of_upToCorrection htaken
      have hfirst : k < (corrections config.jobId st.processed
          ((records.drop (st.checkpoint.nextCursor.getD 0)).take config.batchSize)).length := by
        rw [hbatch, corrections_append, List.length_append, ← hvisit.passed]
        omega
      rw [firstOfBatch_iff_zero hfirst]
      exact tallied_within hvisit hsame htallied htaken
    | last hlast hvisits =>
      rename_i st₁
      obtain ⟨effects,heffects,hvisit⟩ := hvisits.effects
      obtain ⟨saved,hsave,hown,_⟩ := endBatch_save none st₁
      refine ⟨effects ++ [.save saved], ?_, ?_, fun exact saved k taken hsame htallied htaken => ?_⟩
      · rw [hsave, heffects, List.append_assoc]
      · intro checkpoint hmem
        rcases List.mem_append.mp hmem with hmem | hmem
        · exact hvisit.own checkpoint hmem
        · obtain rfl := ReconciliationEffect.save.inj (List.mem_singleton.mp hmem)
          exact hown.trans hvisits.visited.own
      · have hk : k < (passedMismatches effects).length := by
          have hlt := lt_of_upToCorrection htaken
          rw [passedMismatches_append, List.length_append] at hlt
          exact hlt
        rw [firstOfBatch_iff_zero (hvisit.passed ▸ hk)]
        rw [upToCorrection_left hk] at htaken
        exact tallied_within hvisit hsame htallied htaken
    | more hmore hvisits hrest =>
      rename_i st₁
      obtain ⟨effects,heffects,hvisit⟩ := hvisits.effects
      have hvisited := hvisits.visited
      obtain ⟨rest,hall,hrestOwn,hind⟩ := ih hrest
      obtain ⟨next,hsave,hown,hnext⟩ := endBatch_save
        (some (st.checkpoint.nextCursor.getD 0+config.batchSize)) st₁
      refine ⟨effects ++ .save next :: rest, ?_, ?_,
        fun exact saved k taken hsame htallied htaken => ?_⟩
      · rw [hall, hsave, heffects, List.append_assoc, List.append_assoc]
        rfl
      · intro checkpoint hmem
        rcases List.mem_append.mp hmem with hmem | hmem
        · exact hvisit.own checkpoint hmem
        · rcases List.mem_cons.mp hmem with hmem | hmem
          · obtain rfl := ReconciliationEffect.save.inj hmem
            exact hown.trans hvisited.own
          · exact (hrestOwn checkpoint hmem).trans hvisited.own
      · -- in this batch, or in one behind its checkpoint
        by_cases hk : k < (passedMismatches effects).length
        · rw [firstOfBatch_iff_zero (hvisit.passed ▸ hk)]
          rw [upToCorrection_left hk] at htaken
          exact tallied_within hvisit hsame htallied htaken
        · obtain ⟨d,rfl⟩ := Nat.exists_eq_add_of_le (not_lt.mp hk)
          rw [upToCorrection_right] at htaken
          obtain ⟨cut,hcut,rfl⟩ := Option.map_eq_some_iff.mp htaken
          obtain ⟨behind,hbehind,rfl⟩ := Option.map_eq_some_iff.mp
            (by simpa only [upToCorrection] using hcut)
          have htallied' := (htallied.congr hsame).endBatch hmore hvisited
          rw [hvisit.passed, firstOfBatch_iff_rest rfl, ← hvisited.processed, List.drop_drop,
            savedAfter_append]
          exact hind exact next d behind hnext
            (htallied'.congr ⟨hnext.1.symm, hnext.2.1.symm, hnext.2.2.symm⟩) hbehind

/-- The loop that comes to the end of the records. -/
theorem completed_batches (hmode : config.mode = .apply) (hb : 1 ≤ config.batchSize)
    {fuel count : ℕ} (htallied : TalliedAtCursor records config.jobId exact st.checkpoint)
    (h : batchLoop records config fuel st count = some (st', .ok true)) :
    Tallied records config.jobId records.length exact st'.checkpoint := by
  induction fuel generalizing st count with
  | zero => cases h
  | succ fuel ih =>
    cases batchPass_of_batchLoop hmode hb h with
    | last hlast hvisits =>
      have hend := htallied.2.visited hvisits.visited (List.take_prefix _ _)
      have hlen : st.checkpoint.nextCursor.getD 0+((records.drop
          (st.checkpoint.nextCursor.getD 0)).take config.batchSize).length = records.length := by
        have hle := htallied.1
        rw [List.length_take, List.length_drop]
        omega
      rw [hlen] at hend
      exact hend
    | more hmore hvisits hrest => exact ih (htallied.endBatch hmore hvisits.visited) hrest

end

namespace InMemoryCheckpointStore

/-- The checkpoint that a run of the job starts from. -/
def checkpoint (store : InMemoryCheckpointStore) (jobId : String) : ReconciliationCheckpoint :=
  (store.load jobId).getD ⟨jobId, none, [], 0, 0⟩

variable {store : InMemoryCheckpointStore} {jobId : String}

theorem checkpoint_jobId : (store.checkpoint jobId).jobId = jobId := by
  rw [checkpoint]
  cases hload : store.load jobId with
  | none => rfl
  | some saved => exact store.keyed _ _ hload

theorem position_eq_checkpoint : store.position jobId =
    ⟨(store.checkpoint jobId).nextCursor.getD 0, (store.checkpoint jobId).processedIds⟩ := by
  rw [position, checkpoint]
  cases store.load jobId <;> rfl

theorem checkpoint_perform {effects : List ReconciliationEffect}
    (hown : ∀ saved, .save saved ∈ effects → saved.jobId = jobId) :
    (store.perform effects).checkpoint jobId = savedAfter (store.checkpoint jobId) effects := by
  induction effects generalizing store with
  | nil => rfl
  | cons effect rest ih =>
    have hrest : ∀ saved, .save saved ∈ rest → saved.jobId = jobId :=
      fun saved hsaved => hown saved (List.mem_cons_of_mem _ hsaved)
    cases effect with
    | applyMismatch mismatch => exact ih hrest
    | save saved =>
      have hload : (store.save saved).checkpoint jobId = saved := by
        obtain rfl := hown saved List.mem_cons_self
        have hget : (store.save saved).load saved.jobId = some saved :=
          InsertionMap.get_set_self _ _ _
        rw [checkpoint, hget, Option.getD_some]
      rw [perform, ih hrest, hload]
      rfl

end InMemoryCheckpointStore

section
variable {records : List ReconciliationRecord} {jobId : String} {exact : Prop}
  {store store' : InMemoryCheckpointStore}

theorem batchSize_of_normalizeOptions {options : ReconciliationOptions}
    {config : ReconciliationConfig} (h : normalizeOptions options = .ok config) :
    normalizeBatchSize options.batchSize = some config.batchSize := by
  unfold normalizeOptions at h
  split_ifs at h
  split at h
  · cases h
  · rename_i batchSize hbatchSize
    dsimp only at h
    split_ifs at h
    rw [hbatchSize, ← Except.ok.inj h]

theorem prefix_of_upToCorrection {k : ℕ} {effects taken : List ReconciliationEffect}
    (h : upToCorrection k effects = some taken) : taken <+: effects := by
  induction effects generalizing k taken with
  | nil => cases h
  | cons effect rest ih =>
    cases effect with
    | save checkpoint =>
      obtain ⟨cut,hcut,rfl⟩ := Option.map_eq_some_iff.mp (by simpa only [upToCorrection] using h)
      exact (List.prefix_cons_inj _).mpr (ih hcut)
    | applyMismatch mismatch =>
      cases k with
      | zero =>
        obtain rfl := Option.some.inj h
        exact List.nil_prefix
      | succ k =>
        obtain ⟨cut,hcut,rfl⟩ := Option.map_eq_some_iff.mp h
        exact (List.prefix_cons_inj _).mpr (ih hcut)

/-- An apply run whose options are accepted goes through its batches. -/
theorem loop_of_run {run : ApplyRun} {effects : List ReconciliationEffect}
    {outcome : Except ReconciliationInputError ReconciliationResult}
    (h : ReconciliationService.run records store (run.options jobId) = some (effects, outcome)) :
    (effects = [] ∧ ∃ error, outcome = .error error) ∨
    ∃ config st' ending, normalizeOptions (run.options jobId) = .ok config ∧
      batchLoop records config (records.length+1)
        (RunState.init config (store.load jobId)) 0 = some (st', ending) ∧
      effects = st'.effects ∧ outcome = ending.map (st'.result config) := by
  unfold ReconciliationService.run at h
  split at h
  · obtain ⟨rfl,rfl⟩ := Prod.mk.inj (Option.some.inj h)
    exact Or.inl ⟨rfl, _, rfl⟩
  · rename_i config hconfig
    obtain ⟨hjob,_,_,hover,_⟩ := normalizeOptions_ok hconfig
    have hresume : config.startOver = false := hover
    simp only [hresume, Bool.false_eq_true, ↓reduceIte] at h
    obtain ⟨⟨st',ending⟩,hloop,heq⟩ := Option.map_eq_some_iff.mp h
    obtain ⟨rfl,rfl⟩ := Prod.mk.inj heq
    exact Or.inr ⟨config, st', ending, hconfig, by rw [← hloop, hjob]; rfl, rfl, rfl⟩

theorem firstOfBatch_congr {batchSize k : ℕ} {processed processed' : List String}
    (h : ∀ id, id ∈ processed ↔ id ∈ processed') (rest : List ReconciliationRecord) :
    FirstOfBatch jobId batchSize processed rest k ↔
      FirstOfBatch jobId batchSize processed' rest k := by
  simp only [FirstOfBatch, corrections_congr jobId h]

theorem tallied_interrupt {run : InterruptedRun}
    (htallied : TalliedAtCursor records jobId exact (store.checkpoint jobId))
    (h : interrupt records jobId store run = some store') :
    TalliedAtCursor records jobId (exact ∧ run.AtFirstOfBatch records jobId store)
      (store'.checkpoint jobId) := by
  obtain ⟨⟨effects,outcome⟩,hrun,hcut⟩ := Option.bind_eq_some_iff.mp h
  obtain ⟨taken,htaken,rfl⟩ := Option.map_eq_some_iff.mp hcut
  rcases loop_of_run hrun with ⟨rfl,_⟩ | ⟨config,st',ending,hconfig,hloop,rfl,_⟩
  · -- a run whose options are refused has no correction to be interrupted at
    cases htaken
  · obtain ⟨hjob,hmode,hb,_⟩ := normalizeOptions_ok hconfig
    obtain rfl : config.jobId = jobId := hjob
    obtain ⟨effects,heffects,hown,hind⟩ := interrupted_batches hmode hb hloop
    have hnew : st'.effects = effects := heffects
    rw [hnew] at htaken
    have hcheckpoint : (RunState.init config (store.load config.jobId)).checkpoint =
        store.checkpoint config.jobId := rfl
    have hend := hind exact (store.checkpoint config.jobId) run.correction taken
      ⟨rfl, rfl, rfl⟩ htallied htaken
    have hsaves : ∀ saved, .save saved ∈ taken → saved.jobId = config.jobId := fun saved hsaved =>
      (hown saved ((prefix_of_upToCorrection htaken).subset hsaved)).trans
        InMemoryCheckpointStore.checkpoint_jobId
    have hsize := batchSize_of_normalizeOptions hconfig
    have hfirst : run.AtFirstOfBatch records config.jobId store ↔
        FirstOfBatch config.jobId config.batchSize
          (RunState.init config (store.load config.jobId)).processed
          (records.drop ((store.checkpoint config.jobId).nextCursor.getD 0)) run.correction := by
      have hprocessed : ∀ id, id ∈ (store.checkpoint config.jobId).processedIds ↔
          id ∈ (RunState.init config (store.load config.jobId)).processed :=
        fun id => List.mem_eraseDups.symm
      rw [InterruptedRun.AtFirstOfBatch, InMemoryCheckpointStore.position_eq_checkpoint,
        ← firstOfBatch_congr hprocessed]
      constructor
      · rintro ⟨batchSize,hbatchSize,hfirst⟩
        obtain rfl := Option.some.inj (hbatchSize.symm.trans hsize)
        exact hfirst
      · exact fun hfirst => ⟨config.batchSize, hsize, hfirst⟩
    rw [InMemoryCheckpointStore.checkpoint_perform hsaves, hfirst]
    exact hend

theorem tallied_interrupts {runs : List InterruptedRun}
    (htallied : TalliedAtCursor records jobId exact (store.checkpoint jobId))
    (h : exec (interrupt records jobId) store runs = some store') :
    TalliedAtCursor records jobId
      (exact ∧ Along (interrupt records jobId)
        (fun store run _ => run.AtFirstOfBatch records jobId store) store runs)
      (store'.checkpoint jobId) := by
  induction runs generalizing store exact with
  | nil =>
    obtain rfl : store = store' := Option.some.inj h
    simpa [Along] using htallied
  | cons run rest ih =>
    obtain ⟨next,hnext,hrest⟩ := Option.bind_eq_some_iff.mp h
    have hend := ih (tallied_interrupt htallied hnext) hrest
    have hiff : Along (interrupt records jobId)
        (fun store run _ => run.AtFirstOfBatch records jobId store) store (run :: rest) ↔
          run.AtFirstOfBatch records jobId store ∧ Along (interrupt records jobId)
            (fun store run _ => run.AtFirstOfBatch records jobId store) next rest := by
      constructor
      · exact fun hall => hall next hnext
      · rintro hall other hother
        obtain rfl := Option.some.inj (hnext.symm.trans hother)
        exact hall
    rwa [hiff, ← and_assoc]

/-- A job whose runs are interrupted at corrections, and resumed until one
returns complete, has counted its records and mismatches once exactly if each
run was interrupted at the first correction of a batch. -/
theorem resumed_counters_exact_iff (records : List ReconciliationRecord) (jobId : String)
    (runs : List InterruptedRun) (last : ApplyRun) (store : InMemoryCheckpointStore)
    (effects : List ReconciliationEffect) (result : ReconciliationResult)
    (hruns : exec (interrupt records jobId) .empty runs = some store)
    (hlast : ReconciliationService.run records store (last.options jobId) =
      some (effects, .ok result)) (hcomplete : result.complete = true) :
    (result.scanned = records.length ∧ result.mismatches = differing jobId records) ↔
      Along (interrupt records jobId)
        (fun store run _ => run.AtFirstOfBatch records jobId store) .empty runs := by
  have hempty : TalliedAtCursor records jobId True
      (InMemoryCheckpointStore.empty.checkpoint jobId) := by
    have hnone : InMemoryCheckpointStore.empty.checkpoint jobId = ⟨jobId, none, [], 0, 0⟩ := by
      simp [InMemoryCheckpointStore.checkpoint, InMemoryCheckpointStore.load,
        InMemoryCheckpointStore.empty]
    rw [hnone]
    exact ⟨Nat.zero_le _, fun _ => ⟨rfl, rfl⟩, fun hfalse => absurd trivial hfalse⟩
  have htallied := tallied_interrupts hempty hruns
  rw [true_and] at htallied
  rcases loop_of_run hlast with ⟨_,error,herror⟩ | ⟨config,st',ending,hconfig,hloop,_,hresult⟩
  · cases herror
  · cases ending with
    | error error => cases hresult
    | ok complete =>
      obtain rfl := Except.ok.inj hresult
      obtain ⟨hjob,hmode,hb,_⟩ := normalizeOptions_ok hconfig
      obtain rfl : config.jobId = jobId := hjob
      obtain rfl : complete = true := hcomplete
      have hend := completed_batches hmode hb htallied hloop
      rw [Tallied, List.take_length] at hend
      constructor
      · rintro ⟨hscanned,_⟩
        by_contra hmore
        -- some interruption left the counters too high, and they stay so
        have hlt := hend.2 hmore
        have hscanned' : st'.checkpoint.scanned = records.length := hscanned
        omega
      · exact hend.1

/-- Two records of one batch, both of which have to be corrected. -/
def twoMismatches : List ReconciliationRecord :=
  [{ id := "stream-1", expectedAmount := "10", actualAmount := "9.5" },
    { id := "stream-2", expectedAmount := "4", actualAmount := "5" }]

def confirmed : ApplyRun := { confirmation := some "APPLY-RECONCILIATION" }

theorem resumed_counters_exact_at_first : ∃ store effects result,
    exec (interrupt twoMismatches "nightly") .empty [{ confirmed with correction := 0 }] =
      some store ∧
    ReconciliationService.run twoMismatches store (confirmed.options "nightly") =
      some (effects, .ok result) ∧ result.complete = true ∧
    ((result.scanned = twoMismatches.length ∧
        result.mismatches = differing "nightly" twoMismatches) ↔
      Along (interrupt twoMismatches "nightly")
        (fun store run _ => run.AtFirstOfBatch twoMismatches "nightly" store) .empty
          [{ confirmed with correction := 0 }]) := by
  have hruns : ((exec (interrupt twoMismatches "nightly") .empty
      [{ confirmed with correction := 0 }]).bind fun store =>
        (ReconciliationService.run twoMismatches store (confirmed.options "nightly")).map
          fun (_,outcome) => returnsComplete outcome) = some true := by decide
  obtain ⟨store,hstore,hrest⟩ := Option.bind_eq_some_iff.mp hruns
  obtain ⟨⟨effects,outcome⟩,hlast,hreturns⟩ := Option.map_eq_some_iff.mp hrest
  cases outcome with
  | error error => cases hreturns
  | ok result =>
    exact ⟨store, effects, result, hstore, hlast, hreturns,
      resumed_counters_exact_iff _ _ _ _ store effects result hstore hlast hreturns⟩

/-- Interrupted at the second correction of a batch, the first record is counted twice. -/
theorem record_counted_twice :
    ¬ ∀ (records : List ReconciliationRecord) (jobId : String) (runs : List InterruptedRun)
      (last : ApplyRun) (store : InMemoryCheckpointStore) (effects : List ReconciliationEffect)
      (result : ReconciliationResult),
      exec (interrupt records jobId) .empty runs = some store →
      ReconciliationService.run records store (last.options jobId) = some (effects, .ok result) →
      result.complete = true →
      result.scanned = records.length ∧ result.mismatches = differing jobId records := by
  intro h
  have hruns : ((exec (interrupt twoMismatches "nightly") .empty
      [{ confirmed with correction := 1 }]).bind fun store =>
        (ReconciliationService.run twoMismatches store (confirmed.options "nightly")).map
          fun (_,outcome) => outcome.map fun result : ReconciliationResult =>
            (result.scanned, result.complete)) =
      some (.ok (3, true)) := by decide
  obtain ⟨store,hstore,hrest⟩ := Option.bind_eq_some_iff.mp hruns
  obtain ⟨⟨effects,outcome⟩,hlast,hseen⟩ := Option.map_eq_some_iff.mp hrest
  cases outcome with
  | error error => cases hseen
  | ok result =>
    obtain ⟨hscanned,hcomplete⟩ := Prod.mk.inj (Except.ok.inj hseen)
    have hcounts := h twoMismatches "nightly" _ confirmed store effects result hstore hlast
      hcomplete
    rw [hscanned] at hcounts
    exact absurd hcounts.1 (by decide)

end

end StreamPay
