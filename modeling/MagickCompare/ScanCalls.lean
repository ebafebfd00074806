import MagickCompare.Scan
import Mathlib.Algebra.Order.BigOperators.Group.Finset
/-! The offsets the row loop of `SimilarityMetricImage` passes to `GetSimilarityMetric`.

Each worker owes the candidates of the rest of its current row and of the rows left in its
queue. A step either makes the first call its worker owes, or drops calls it owes (a failed
read, a best score at or below the threshold), or leaves what it owes alone, and touches
no other worker. So over any interleaving the calls made and the calls owed stay within
the candidates of the queued rows, and without a failure or a score at or below the
threshold they stay equal to them. -/

namespace MagickCompare

section Owed

variable {S : Type*} (columns : ℕ)

/-- The candidates of row `y` from column `x` on. -/
def rowFrom (y x : ℕ) : List (ℕ × ℕ) := (List.range' x (columns - x)).map fun x => (x, y)

/-- The candidates of the rows `ys`, row by row. -/
def queuedCalls (ys : List ℕ) : List (ℕ × ℕ) := ys.flatMap (rowFrom columns · 0)

/-- The calls a worker still owes: the rest of its current row, then the rows left in its
queue. -/
def owedCalls (wk : ScanWorker S) : List (ℕ × ℕ) :=
  match wk.phase with
  | .done => []
  | .nextRow | .rowSync _ => queuedCalls columns wk.rows
  | .rowStatus y | .rowThreshold y | .rowAccess y => rowFrom columns y 0 ++ queuedCalls columns wk.rows
  | .columnThreshold y x | .evaluate y x => rowFrom columns y x ++ queuedCalls columns wk.rows
  | .compare y x _ | .writeMetric y x _ | .writeOffsetX y x _ | .writeOffsetY y x _
  | .writePixel y x _ => rowFrom columns y (x + 1) ++ queuedCalls columns wk.rows

/-- A worker about to call `GetSimilarityMetric` is inside the row. -/
def EvaluateBound (wk : ScanWorker S) : Prop := ∀ y x, wk.phase = .evaluate y x → x < columns

theorem rowFrom_of_lt {y x : ℕ} (hx : x < columns) :
    rowFrom columns y x = (x, y) :: rowFrom columns y (x + 1) := by
  rw [rowFrom, rowFrom, show columns - x = (columns - (x + 1)) + 1 by omega, List.range'_succ]
  rfl

theorem rowFrom_of_le {y x : ℕ} (hx : columns ≤ x) : rowFrom columns y x = [] := by
  simp [rowFrom, Nat.sub_eq_zero_of_le hx]

/-- The calls the first `n` workers still owe. -/
def owedAll (st : ScanState S) (n : ℕ) : Multiset (ℕ × ℕ) :=
  ∑ w in Finset.range n, (owedCalls columns (st.workers w) : Multiset (ℕ × ℕ))

/-- What every run keeps: a worker at `GetSimilarityMetric` is inside its row, and the
workers past the first `n` owe nothing. -/
structure CallsInv (n : ℕ) (st : ScanState S) : Prop where
  bound : ∀ w, EvaluateBound columns (st.workers w)
  idle : ∀ w, n ≤ w → owedCalls columns (st.workers w) = []

theorem mem_owedAll {st : ScanState S} {n w : ℕ} (hinv : CallsInv columns n st) {c : ℕ × ℕ}
    (hc : c ∈ owedCalls columns (st.workers w)) : c ∈ owedAll columns st n := by
  have hw : w < n := by
    by_contra hn
    rw [hinv.idle w (not_lt.mp hn)] at hc
    exact List.not_mem_nil c hc
  exact Multiset.mem_of_le
    (Finset.single_le_sum (fun _ _ => Multiset.zero_le _) (a := w) (Finset.mem_range.mpr hw)) hc

theorem sum_queuedCalls_getD (queues : List (List ℕ)) :
    ∑ w in Finset.range queues.length,
        (queuedCalls columns (queues.getD w []) : Multiset (ℕ × ℕ)) =
      queuedCalls columns queues.flatten := by
  induction queues with
  | nil => rfl
  | cons q qs ih =>
    rw [List.length_cons, Finset.sum_range_succ']
    simp only [List.getD_cons_succ, List.getD_cons_zero, ih, List.flatten_cons]
    rw [queuedCalls, queuedCalls, queuedCalls, List.flatMap_append, ← Multiset.coe_add, add_comm]

theorem owedAll_scanStart (init : S) (queues : List (List ℕ)) :
    owedAll columns (scanStart init queues) queues.length = queuedCalls columns queues.flatten := by
  rw [← sum_queuedCalls_getD]
  rfl

theorem callsInv_scanStart (init : S) (queues : List (List ℕ)) :
    CallsInv columns queues.length (scanStart init queues) :=
  ⟨fun _ _ _ h => (by cases h), fun w hw => by
    simp [scanStart, owedCalls, queuedCalls, List.getElem?_eq_none hw]⟩

theorem owedAll_of_finished {st : ScanState S} {n : ℕ} (h : st.Finished n) :
    owedAll columns st n = 0 :=
  Finset.sum_eq_zero fun w hw => by simp [owedCalls, h w (Finset.mem_range.mp hw)]

theorem queuedCalls_range (rows : ℕ) :
    queuedCalls columns (List.range rows) = scanCandidates columns rows := by
  simp [queuedCalls, scanCandidates, rowFrom, List.range_eq_range']

end Owed

/-- The call a step makes: the candidate of a worker at `GetSimilarityMetric`. -/
def stepCalls {S : Type*} (st : ScanState S) (w : ℕ) : List (ℕ × ℕ) :=
  match (st.workers w).phase with
  | .evaluate y x => [(x, y)]
  | _ => []

theorem mem_stepCalls {S : Type*} {st : ScanState S} {w : ℕ} {c : ℕ × ℕ} :
    c ∈ stepCalls st w ↔ (st.workers w).phase = .evaluate c.2 c.1 := by
  unfold stepCalls
  split
  · next y x h =>
    rw [h, List.mem_singleton, ScanPhase.evaluate.injEq, Prod.ext_iff]
    exact ⟨fun ⟨h1, h2⟩ => ⟨h2.symm, h1.symm⟩, fun ⟨h1, h2⟩ => ⟨h2.symm, h1.symm⟩⟩
  · next h => exact ⟨fun hc => absurd hc (List.not_mem_nil c), fun he => absurd he (h _ _)⟩

section Step

variable {S : Type*} [LinearOrder S] (env : ScanEnv S)

/-- The offsets passed to `GetSimilarityMetric` by the steps `turns`, in order. -/
def scanCalls (st : ScanState S) : List ℕ → List (ℕ × ℕ)
  | [] => []
  | w :: ws => stepCalls st w ++ scanCalls (scanStep env st w) ws

theorem scanStep_workers_ne (st : ScanState S) {w w' : ℕ} (h : w' ≠ w) :
    (scanStep env st w).workers w' = st.workers w' := by
  simp only [scanStep]
  split <;> (try split) <;> simp [ScanState.set, Function.update_noteq h]

theorem evaluateBound_scanStep (st : ScanState S) (w : ℕ) :
    EvaluateBound env.columns ((scanStep env st w).workers w) := by
  intro y x
  simp only [scanStep]
  split <;> (try split) <;> simp_all
  rintro rfl rfl
  exact ‹_ ∧ _›.1

/-- A step either makes the first call its worker owes, or drops some calls it owes; with
`status` set, the best score above the threshold and every row read, it drops none. -/
theorem owedCalls_scanStep (st : ScanState S) (w : ℕ)
    (hb : EvaluateBound env.columns (st.workers w)) :
    (stepCalls st w ++ owedCalls env.columns ((scanStep env st w).workers w)).Sublist
      (owedCalls env.columns (st.workers w)) ∧
    (st.shared.status = true → ¬st.shared.similarityMetric ≤ env.threshold →
      (∀ y, env.rowOk y = true) →
      stepCalls st w ++ owedCalls env.columns ((scanStep env st w).workers w) =
        owedCalls env.columns (st.workers w)) := by
  rcases hw : st.workers w with ⟨rows, phase⟩
  rw [hw] at hb
  cases phase with
  | nextRow => cases rows <;> simp [scanStep, stepCalls, hw, owedCalls, queuedCalls]
  | rowStatus y | rowThreshold y =>
    simp only [scanStep, stepCalls, hw]
    split_ifs <;> simp_all [owedCalls]
  | rowAccess y =>
    simp only [scanStep, stepCalls, hw]
    split_ifs with hok
    · simp [owedCalls]
    · refine ⟨by simp [owedCalls], fun _ _ h => absurd (h y) (by simp [hok])⟩
  | columnThreshold y x =>
    simp only [scanStep, stepCalls, hw]
    split_ifs with hx
    · simp [owedCalls]
    · refine ⟨by simp [owedCalls], fun _ ht _ => ?_⟩
      simp [owedCalls, rowFrom_of_le _ (not_lt.mp fun h => hx ⟨h, ht⟩)]
  | evaluate y x =>
    simp [scanStep, stepCalls, hw, owedCalls, rowFrom_of_lt _ (hb y x rfl)]
  | compare y x s =>
    simp only [scanStep, stepCalls, hw]
    split_ifs <;> simp [owedCalls]
  | writeMetric y x s | writeOffsetX y x s | writeOffsetY y x s | writePixel y x s | rowSync y
  | done =>
    simp [scanStep, stepCalls, hw, owedCalls]

/-- The best score changes only at its write. -/
theorem scanStep_similarityMetric (st : ScanState S) (w : ℕ) :
    (scanStep env st w).shared.similarityMetric = st.shared.similarityMetric ∨
      ∃ y x, (st.workers w).phase = .writeMetric y x
        (scanStep env st w).shared.similarityMetric := by
  simp only [scanStep]
  split <;> (try split) <;> simp_all

/-- A score a worker carries was computed at `GetSimilarityMetric` in this step, or was
carried before. -/
theorem scanStep_similarity (st : ScanState S) (w : ℕ) {y x : ℕ} {s : S}
    (h : ((scanStep env st w).workers w).phase = .compare y x s ∨
      ((scanStep env st w).workers w).phase = .writeMetric y x s) :
    ((st.workers w).phase = .evaluate y x ∧ s = env.score x y) ∨
      (st.workers w).phase = .compare y x s := by
  simp only [scanStep] at h
  split at h <;> (try split at h) <;> simp_all
  obtain ⟨rfl, rfl, rfl⟩ := ‹_ ∧ _ ∧ _›
  rfl

/-! ### Calls made and calls owed over a run -/

variable {n : ℕ}

theorem owedAll_scanStep {st : ScanState S} (hinv : CallsInv env.columns n st) (w : ℕ) :
    (stepCalls st w : Multiset (ℕ × ℕ)) + owedAll env.columns (scanStep env st w) n ≤
      owedAll env.columns st n ∧
    (st.shared.status = true → ¬st.shared.similarityMetric ≤ env.threshold →
      (∀ y, env.rowOk y = true) →
      (stepCalls st w : Multiset (ℕ × ℕ)) + owedAll env.columns (scanStep env st w) n =
        owedAll env.columns st n) := by
  obtain ⟨hsub, hexact⟩ := owedCalls_scanStep env st w (hinv.bound w)
  have hframe : ∀ w' ∈ (Finset.range n).erase w,
      (owedCalls env.columns ((scanStep env st w).workers w') : Multiset (ℕ × ℕ)) =
        owedCalls env.columns (st.workers w') := fun w' hw' => by
    rw [scanStep_workers_ne env st (Finset.ne_of_mem_erase hw')]
  by_cases hw : w < n
  · have hmem := Finset.mem_range.mpr hw
    rw [owedAll, owedAll, ← Finset.add_sum_erase _ _ hmem, ← Finset.add_sum_erase _ _ hmem,
      Finset.sum_congr rfl hframe, ← add_assoc, Multiset.coe_add]
    exact ⟨add_le_add_right (Multiset.coe_le.mpr hsub.subperm) _,
      fun hs ht hok => by rw [hexact hs ht hok]⟩
  · have hnil := hsub
    rw [hinv.idle w (not_lt.mp hw), List.sublist_nil, List.append_eq_nil] at hnil
    have hall : owedAll env.columns (scanStep env st w) n = owedAll env.columns st n :=
      Finset.sum_congr rfl fun w' hw' => by
        rw [scanStep_workers_ne env st fun h => hw (by rw [← h]; exact Finset.mem_range.mp hw')]
    simp [hnil.1, hall]

theorem callsInv_scanStep {st : ScanState S} (hinv : CallsInv env.columns n st) (w : ℕ) :
    CallsInv env.columns n (scanStep env st w) := by
  refine ⟨fun w' => ?_, fun w' hw' => ?_⟩
  · by_cases h : w' = w
    · subst h; exact evaluateBound_scanStep env st w'
    · rw [scanStep_workers_ne env st h]; exact hinv.bound w'
  · by_cases h : w' = w
    · subst h
      have hsub := (owedCalls_scanStep env st w' (hinv.bound w')).1
      rw [hinv.idle w' hw', List.sublist_nil, List.append_eq_nil] at hsub
      exact hsub.2
    · rw [scanStep_workers_ne env st h]; exact hinv.idle w' hw'

theorem scanCalls_cons_add (st : ScanState S) (w : ℕ) (ws : List ℕ) :
    (scanCalls env st (w :: ws) : Multiset (ℕ × ℕ)) + owedAll env.columns (runScan env st (w :: ws)) n =
      (stepCalls st w : Multiset (ℕ × ℕ)) + ((scanCalls env (scanStep env st w) ws :
        Multiset (ℕ × ℕ)) + owedAll env.columns (runScan env (scanStep env st w) ws) n) := by
  rw [scanCalls, ← Multiset.coe_add, add_assoc]
  rfl

/-- Over any run, the calls made and the calls still owed are among the calls owed at the
start, each at most as often. -/
theorem scanCalls_add_owedAll_le (turns : List ℕ) : ∀ st : ScanState S,
    CallsInv env.columns n st →
      (scanCalls env st turns : Multiset (ℕ × ℕ)) + owedAll env.columns (runScan env st turns) n ≤
        owedAll env.columns st n := by
  induction turns with
  | nil => intro st _; simp [scanCalls, runScan]
  | cons w ws ih =>
    intro st hinv
    rw [scanCalls_cons_add]
    calc _ ≤ (stepCalls st w : Multiset (ℕ × ℕ)) + owedAll env.columns (scanStep env st w) n :=
          add_le_add_left (ih _ (callsInv_scanStep env hinv w)) _
      _ ≤ owedAll env.columns st n := (owedAll_scanStep env hinv w).1

/-- What a run without a failed row access or sync and without a score at or below the
threshold keeps: `status` set, the best score above the threshold, and every score a
worker carries or owes above it. -/
structure ExactInv (n : ℕ) (st : ScanState S) : Prop where
  calls : CallsInv env.columns n st
  status : st.shared.status = true
  metric : env.threshold < st.shared.similarityMetric
  similarity : ∀ w y x s, ((st.workers w).phase = .compare y x s ∨
    (st.workers w).phase = .writeMetric y x s) → env.threshold < s
  scores : ∀ c ∈ owedAll env.columns st n, env.threshold < env.score c.1 c.2

theorem exactInv_scanStep (hok : ∀ y, env.rowOk y = true ∧ env.syncOk y = true)
    {st : ScanState S} (hinv : ExactInv env n st) (w : ℕ) : ExactInv env n (scanStep env st w) := by
  have hle : owedAll env.columns (scanStep env st w) n ≤ owedAll env.columns st n :=
    (Multiset.le_add_left _ _).trans (owedAll_scanStep env hinv.calls w).1
  refine ⟨callsInv_scanStep env hinv.calls w, scanStep_status env hok hinv.status w, ?_,
    fun w' y x s h => ?_, fun c hc => hinv.scores c (Multiset.subset_of_le hle hc)⟩
  · rcases scanStep_similarityMetric env st w with h | ⟨y, x, h⟩
    · rw [h]; exact hinv.metric
    · exact hinv.similarity w y x _ (Or.inr h)
  · by_cases hw : w' = w
    · subst hw
      rcases scanStep_similarity env st w' h with ⟨he, rfl⟩ | hc
      · exact hinv.scores (x, y) (mem_owedAll _ (w := w') hinv.calls
          (by simp [owedCalls, he, rowFrom_of_lt _ (hinv.calls.bound w' y x he)]))
      · exact hinv.similarity w' y x s (Or.inl hc)
    · rw [scanStep_workers_ne env st hw] at h
      exact hinv.similarity w' y x s h

/-- Without a failed row access or sync and without a score at or below the threshold,
the calls made and the calls still owed are exactly the calls owed at the start. -/
theorem scanCalls_add_owedAll_eq (hok : ∀ y, env.rowOk y = true ∧ env.syncOk y = true)
    (turns : List ℕ) : ∀ st : ScanState S, ExactInv env n st →
      (scanCalls env st turns : Multiset (ℕ × ℕ)) + owedAll env.columns (runScan env st turns) n =
        owedAll env.columns st n := by
  induction turns with
  | nil => intro st _; simp [scanCalls, runScan]
  | cons w ws ih =>
    intro st hinv
    rw [scanCalls_cons_add, ih _ (exactInv_scanStep env hok hinv w)]
    exact (owedAll_scanStep env hinv.calls w).2 hinv.status (not_le.mpr hinv.metric)
      fun y => (hok y).1

/-- Over any interleaving of any run, every offset passed to `GetSimilarityMetric` is a
candidate of the rows the queues hold, and none is passed twice. -/
theorem scanCalls_subperm (init : S) (queues : List (List ℕ)) (turns : List ℕ) :
    (scanCalls env (scanStart init queues) turns).Subperm (queuedCalls env.columns queues.flatten) :=
  Multiset.coe_le.mp ((Multiset.le_add_right _ _).trans
    ((scanCalls_add_owedAll_le env turns _ (callsInv_scanStart env.columns init queues)).trans_eq
      (owedAll_scanStart env.columns init queues)))

/-- A finished run without a failed row access or sync, from a best score above the
threshold and with no candidate scoring at or below it, passes every candidate of the
queued rows to `GetSimilarityMetric` exactly once. -/
theorem exactInv_scanStart {init : S} (hinit : env.threshold < init) {queues : List (List ℕ)}
    (hscore : ∀ c ∈ queuedCalls env.columns queues.flatten, env.threshold < env.score c.1 c.2) :
    ExactInv env queues.length (scanStart init queues) :=
  ⟨callsInv_scanStart env.columns init queues, rfl, hinit, fun _ _ _ _ h => by simp [scanStart] at h,
    fun c hc => hscore c (by rwa [owedAll_scanStart] at hc)⟩

theorem scanCalls_perm (hok : ∀ y, env.rowOk y = true ∧ env.syncOk y = true) {init : S}
    (hinit : env.threshold < init) {queues : List (List ℕ)}
    (hscore : ∀ c ∈ queuedCalls env.columns queues.flatten, env.threshold < env.score c.1 c.2)
    {turns : List ℕ} (hfin : (runScan env (scanStart init queues) turns).Finished queues.length) :
    (scanCalls env (scanStart init queues) turns).Perm (queuedCalls env.columns queues.flatten) := by
  rw [← Multiset.coe_eq_coe, ← owedAll_scanStart env.columns init queues,
    ← scanCalls_add_owedAll_eq env hok turns _ (exactInv_scanStart env hinit hscore),
    owedAll_of_finished env.columns hfin, add_zero]

end Step
end MagickCompare
