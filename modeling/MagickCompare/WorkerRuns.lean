import MagickCompare.SearchOffsets
/-! How far the workers of the row loop of `SimilarityMetricImage` run.

Nothing in the loop waits: each step of a worker that has not left it spends part of a
budget of `7 * columns + 6` steps per row, whatever the other workers and the shared
variables do, so over any interleaving every worker leaves the loop after a bounded number
of its own turns.

The loop leaves a row, and skips every later one, once the best score is at or below the
threshold. One worker given every offset row therefore scores the candidates in row-major
order up to and including the first at or below the threshold, and no other: its run
refines the serial loop call by call, not only in the shared state it ends with. -/

namespace MagickCompare

section Budget

variable {S : Type*}

/-- The most steps a worker can still take before it leaves the loop: `7 * columns + 6`
for each row it has not begun (its `nextRow` and three checks, seven per candidate, the
last column check and the sync), what is left of its current row, and the last `nextRow`. -/
def ScanWorker.budget (columns : ℕ) (wk : ScanWorker S) : ℕ :=
  let base := (7 * columns + 6) * wk.rows.length + 1
  match wk.phase with
  | .nextRow => base
  | .rowStatus _ => base + 7 * columns + 5
  | .rowThreshold _ => base + 7 * columns + 4
  | .rowAccess _ => base + 7 * columns + 3
  | .columnThreshold _ x => base + 7 * (columns - x) + 2
  | .evaluate _ x => base + 7 * (columns - (x + 1)) + 8
  | .compare _ x _ => base + 7 * (columns - (x + 1)) + 7
  | .writeMetric _ x _ => base + 7 * (columns - (x + 1)) + 6
  | .writeOffsetX _ x _ => base + 7 * (columns - (x + 1)) + 5
  | .writeOffsetY _ x _ => base + 7 * (columns - (x + 1)) + 4
  | .writePixel _ x _ => base + 7 * (columns - (x + 1)) + 3
  | .rowSync _ => base + 1
  | .done => 0

theorem ScanWorker.budget_eq_zero {columns : ℕ} {wk : ScanWorker S} :
    wk.budget columns = 0 ↔ wk.phase = .done := by
  obtain ⟨rows, phase⟩ := wk
  cases phase <;> simp [ScanWorker.budget]

variable [LinearOrder S] (env : ScanEnv S)

/-- Each step of a worker that has not left the loop spends some of its budget, whatever
the shared variables hold. -/
theorem budget_scanStep (st : ScanState S) (w : ℕ) (h : (st.workers w).phase ≠ .done) :
    ((scanStep env st w).workers w).budget env.columns + 1 ≤
      (st.workers w).budget env.columns := by
  rcases hwk : st.workers w with ⟨rows, phase⟩
  rw [hwk] at h
  cases phase
  case done => exact absurd rfl h
  all_goals
    simp only [scanStep, hwk]
    (try split) <;> simp [ScanWorker.budget, hwk, mul_add] <;> omega

theorem done_runScan {w : ℕ} (turns : List ℕ) : ∀ st : ScanState S,
    (st.workers w).phase = .done → ((runScan env st turns).workers w).phase = .done := by
  induction turns with
  | nil => exact fun _ h => h
  | cons w' ws ih =>
    refine fun st h => ih _ ?_
    by_cases hw : w = w'
    · subst hw
      simp [scanStep, h]
    · rwa [scanStep_workers_ne env st hw]

/-- Over any interleaving, each turn a worker takes spends its budget, until it has left
the loop. -/
theorem budget_runScan (w : ℕ) (turns : List ℕ) : ∀ st : ScanState S,
    ((runScan env st turns).workers w).phase = .done ∨
      ((runScan env st turns).workers w).budget env.columns + turns.count w ≤
        (st.workers w).budget env.columns := by
  induction turns with
  | nil => exact fun st => .inr (by simp [runScan])
  | cons w' ws ih =>
    intro st
    by_cases hdone : (st.workers w).phase = .done
    · exact .inl (done_runScan env (w' :: ws) st hdone)
    refine (ih (scanStep env st w')).imp_right fun hb => ?_
    by_cases hw : w' = w
    · subst hw
      have := budget_scanStep env st w' hdone
      rw [List.count_cons_self, ← Nat.add_assoc]
      exact (Nat.succ_le_succ hb).trans this
    · rw [List.count_cons_of_ne (Ne.symm hw), ← scanStep_workers_ne env st (Ne.symm hw)]
      exact hb

/-- Over any interleaving, whatever the shared variables hold and whatever fails, every
worker of `queues` has left the loop once it has taken `7 * columns + 6` turns for each
row of its queue, and one more. -/
theorem runScan_finished (init : S) (queues : List (List ℕ)) (turns : List ℕ)
    (hturns : ∀ w < queues.length,
      (7 * env.columns + 6) * (queues.getD w []).length + 1 ≤ turns.count w) :
    (runScan env (scanStart init queues) turns).Finished queues.length := by
  intro w hw
  refine (budget_runScan env w turns _).elim id fun hb =>
    (@ScanWorker.budget_eq_zero _ env.columns _).mp ?_
  have hstart : ((scanStart init queues).workers w).budget env.columns =
      (7 * env.columns + 6) * (queues.getD w []).length + 1 := rfl
  have := hturns w hw
  omega

end Budget

section Serial

variable {S : Type*} [LinearOrder S] (env : ScanEnv S)

/-- The offsets the serial loop scores: each candidate in turn, until the best score is at
or below the threshold. -/
def visitCalls (sh : ScanShared S) : List (ℕ × ℕ) → List (ℕ × ℕ)
  | [] => []
  | c :: l =>
    if sh.similarityMetric ≤ env.threshold then [] else c :: visitCalls (scanCandidate env sh c) l

theorem visitCalls_stop {sh : ScanShared S} (h : sh.similarityMetric ≤ env.threshold)
    (l : List (ℕ × ℕ)) : visitCalls env sh l = [] := by
  cases l <;> simp [visitCalls, h]

theorem visitCalls_append (l₁ l₂ : List (ℕ × ℕ)) (sh : ScanShared S) :
    visitCalls env sh (l₁ ++ l₂) =
      visitCalls env sh l₁ ++ visitCalls env (l₁.foldl (visitCandidate env) sh) l₂ := by
  induction l₁ generalizing sh with
  | nil => rfl
  | cons c l₁ ih =>
    by_cases h : sh.similarityMetric ≤ env.threshold
    · rw [List.foldl_cons, visitCandidate, if_pos h, foldl_visitCandidate_stop env h,
        visitCalls_stop env h, visitCalls_stop env h, visitCalls_stop env h]
      rfl
    · rw [List.cons_append, visitCalls, visitCalls, if_neg h, if_neg h, List.foldl_cons,
        visitCandidate, if_neg h, ih, List.cons_append]

/-- From a best score above the threshold, the serial loop scores the candidates up to
and including the first that scores at or below it. -/
theorem visitCalls_eq (l : List (ℕ × ℕ)) (sh : ScanShared S)
    (hs : ¬sh.similarityMetric ≤ env.threshold) :
    visitCalls env sh l = l.takeWhile (fun c => env.threshold < env.score c.1 c.2) ++
      (l.dropWhile fun c => env.threshold < env.score c.1 c.2).take 1 := by
  induction l generalizing sh with
  | nil => rfl
  | cons c l ih =>
    rw [visitCalls, if_neg hs, List.takeWhile_cons, List.dropWhile_cons]
    by_cases hc : env.threshold < env.score c.1 c.2
    · rw [ih _ (by rw [scanCandidate_metric]; exact not_le.mpr (lt_min hc (not_le.mp hs)))]
      simp [hc]
    · rw [visitCalls_stop env
        (by rw [scanCandidate_metric]; exact min_le_of_left_le (not_lt.mp hc))]
      simp [hc]

end Serial

section Alone

variable {S : Type*} [LinearOrder S] (env : ScanEnv S)

theorem scanCalls_append (st : ScanState S) (a b : List ℕ) :
    scanCalls env st (a ++ b) = scanCalls env st a ++ scanCalls env (runScan env st a) b := by
  induction a generalizing st with
  | nil => rfl
  | cons w a ih => rw [List.cons_append, scanCalls, scanCalls, ih, List.append_assoc]; rfl

theorem scanCalls_done {st : ScanState S} {w : ℕ} (h : (st.workers w).phase = .done) (n : ℕ) :
    scanCalls env st (List.replicate n w) = [] := by
  induction n with
  | zero => rfl
  | succ n ih =>
    rw [List.replicate_succ, scanCalls, show scanStep env st w = st from runScan_done env h 1, ih]
    simp [stepCalls, h]

variable (w : ℕ)

/-- Worker `w`, run alone from `st₁`, reaches `st₂` and passes `calls` to
`GetSimilarityMetric` on the way. -/
def RunsAlone (st₁ : ScanState S) (calls : List (ℕ × ℕ)) (st₂ : ScanState S) : Prop :=
  ∃ n, runScan env st₁ (List.replicate n w) = st₂ ∧ scanCalls env st₁ (List.replicate n w) = calls

variable {env w}

theorem RunsAlone.trans {st₁ st₂ st₃ : ScanState S} {calls₁ calls₂ : List (ℕ × ℕ)}
    (h₁ : RunsAlone env w st₁ calls₁ st₂) (h₂ : RunsAlone env w st₂ calls₂ st₃) :
    RunsAlone env w st₁ (calls₁ ++ calls₂) st₃ := by
  obtain ⟨n₁, hs₁, hc₁⟩ := h₁
  obtain ⟨n₂, hs₂, hc₂⟩ := h₂
  refine ⟨n₁ + n₂, ?_, ?_⟩
  · rw [List.replicate_add, runScan_append, hs₁, hs₂]
  · rw [List.replicate_add, scanCalls_append, hc₁, hs₁, hc₂]

variable (env w) (st : ScanState S) (y : ℕ) (rows : List ℕ)

theorem runsAlone_candidate {x : ℕ} {sh : ScanShared S} (hx : x < env.columns)
    (ht : ¬sh.similarityMetric ≤ env.threshold) :
    RunsAlone env w (st.set w sh rows (.columnThreshold y x)) [(x, y)]
      (st.set w (scanCandidate env sh (x, y)) rows (.columnThreshold y (x + 1))) := by
  by_cases hs : env.score x y < sh.similarityMetric
  · exact ⟨7, by simp [runScan, scanStep, hx, ht, hs, scanCandidate],
      by simp [scanCalls, stepCalls, scanStep, hx, ht, hs]⟩
  · exact ⟨4, by simp [runScan, scanStep, hx, ht, hs, scanCandidate],
      by simp [scanCalls, stepCalls, scanStep, hx, ht, hs]⟩

/-- The steps of one row's column loop make the calls of the serial loop over the row. -/
theorem runsAlone_columns (k : ℕ) : ∀ x sh, x + k = env.columns →
    RunsAlone env w (st.set w sh rows (.columnThreshold y x))
      (visitCalls env sh ((List.range' x k).map fun x => (x, y)))
      (st.set w (scanColumns env y (List.range' x k) sh) rows (.rowSync y)) := by
  induction k with
  | zero =>
    intro x sh hx
    have hx : ¬x < env.columns := by omega
    exact ⟨1, by simp [runScan, scanStep, scanColumns, hx],
      by simp [scanCalls, stepCalls, visitCalls]⟩
  | succ k ih =>
    intro x sh hx
    by_cases ht : sh.similarityMetric ≤ env.threshold
    · exact ⟨1, by simp [runScan, scanStep, scanColumns, ht],
        by simp [scanCalls, stepCalls, visitCalls_stop env ht]⟩
    · rw [List.range'_succ, scanColumns, if_neg ht, List.map_cons, visitCalls, if_neg ht]
      exact (runsAlone_candidate env w st y rows (by omega) ht).trans (ih (x + 1) _ (by omega))

theorem runsAlone_row (sh : ScanShared S) (hs : sh.status = true) (hok : env.rowOk y = true) :
    RunsAlone env w (st.set w sh rows (.rowStatus y))
      (visitCalls env sh ((List.range env.columns).map fun x => (x, y)))
      (st.set w (scanRow env sh y) rows .nextRow) := by
  by_cases ht : sh.similarityMetric ≤ env.threshold
  · exact ⟨2, by simp [runScan, scanStep, scanRow, hs, ht],
      by simp [scanCalls, stepCalls, scanStep, hs, visitCalls_stop env ht]⟩
  have hcols := runsAlone_columns env w st y rows env.columns 0 sh (Nat.zero_add _)
  rw [← List.range_eq_range'] at hcols
  -- the row's three checks, its column loop, then its sync
  have h := (RunsAlone.trans ⟨3, ?_, rfl⟩ (hcols.trans ⟨1, ?_, rfl⟩) :
    RunsAlone env w (st.set w sh rows (.rowStatus y)) _ (st.set w (scanRow env sh y) rows .nextRow))
  · simpa [scanCalls, stepCalls, scanStep, hs, ht, hok] using h
  · simp [runScan, scanStep, hs, ht, hok]
  · simp only [scanRow, hs, ht, hok, false_or, if_false]
    simp [runScan, scanStep]

theorem runsAlone_rows (ys : List ℕ) (hok : ∀ y ∈ ys, env.rowOk y = true ∧ env.syncOk y = true) :
    ∀ sh : ScanShared S, sh.status = true →
      RunsAlone env w (st.set w sh ys .nextRow)
        (visitCalls env sh (ys.flatMap fun y => (List.range env.columns).map fun x => (x, y)))
        (st.set w (ys.foldl (scanRow env) sh) [] .done) := by
  induction ys with
  | nil =>
    exact fun sh _ => ⟨1, by simp [runScan, scanStep], by simp [scanCalls, stepCalls, visitCalls]⟩
  | cons y ys ih =>
    intro sh hs
    have hrow := foldl_scanRow_eq env [y]
      (fun z hz => hok z (List.mem_singleton.mp hz ▸ List.mem_cons_self _ _)) sh hs
    simp only [List.foldl_cons, List.foldl_nil, List.flatMap_cons, List.flatMap_nil,
      List.append_nil] at hrow
    have hs' : (scanRow env sh y).status = true := by rw [hrow, foldl_visitCandidate_status, hs]
    have hnext : RunsAlone env w (st.set w sh (y :: ys) .nextRow) []
        (st.set w sh ys (.rowStatus y)) :=
      ⟨1, by simp [runScan, scanStep], by simp [scanCalls, stepCalls]⟩
    rw [List.flatMap_cons, visitCalls_append, ← hrow, List.foldl_cons]
    exact hnext.trans ((runsAlone_row env w st y ys sh hs (hok y (List.mem_cons_self _ _)).1).trans
        (ih (fun z hz => hok z (List.mem_cons_of_mem _ hz)) _ hs'))

/-- One worker given every row, once it has run long enough, has passed to
`GetSimilarityMetric` the offsets the serial loop scores. -/
theorem scanCalls_single (init : S) (rows : ℕ)
    (hok : ∀ y < rows, env.rowOk y = true ∧ env.syncOk y = true) :
    ∃ N, ∀ n ≥ N, scanCalls env (scanStart init [List.range rows]) (List.replicate n 0) =
      visitCalls env (scanStart init []).shared (scanCandidates env.columns rows) := by
  have hstart : (scanStart init [List.range rows]).set 0 (scanStart init []).shared
      (List.range rows) .nextRow = scanStart init [List.range rows] :=
    congrArg (ScanState.mk _) (Function.update_eq_self 0 _)
  obtain ⟨N, hs, hc⟩ := runsAlone_rows env 0 (scanStart init [List.range rows]) (List.range rows)
    (fun y hy => hok y (List.mem_range.mp hy)) (scanStart init []).shared rfl
  refine ⟨N, fun n hn => ?_⟩
  obtain ⟨k, rfl⟩ := Nat.exists_eq_add_of_le hn
  rw [← hstart, List.replicate_add, scanCalls_append, hc, hs, scanCalls_done env (by simp) k,
    List.append_nil]
  rfl

end Alone

noncomputable section

section Search

variable {image reference : Image} {metric : MetricType} {search : SearchCollaborators}

/-- Over any interleaving of the workers of a static schedule, whatever the scores and
whatever fails, the row loop of `SimilarityMetricImage` ends: every worker has left it once
it has taken `7 * columns + 6` turns for each row of its queue, and one more, where
`columns` is the number of candidate columns. -/
theorem similarityScan_finished (threshold : EReal) (queues : List (List ℕ)) (turns : List ℕ)
    (hturns : ∀ w < queues.length,
      (7 * searchColumns image reference + 6) * (queues.getD w []).length + 1 ≤ turns.count w) :
    (similarityScan image reference metric search threshold queues turns).Finished
      queues.length :=
  runScan_finished _ _ queues turns hturns

/-- One worker given every offset row, once it has run long enough and without a failed row
access or sync, has passed to `GetSimilarityMetric` the candidates in row-major order up to
and including the first scoring at or below the threshold, and no other. -/
theorem similarityCalls_single_worker (threshold : EReal)
    (hmorph : validateImageMorphology image reference = true) (hclone : search.cloneOk = true)
    (hok : ∀ y < searchRows image reference, search.rowOk y = true ∧ search.syncOk y = true)
    (hthr : threshold < magickMaximumValue) :
    ∃ N, ∀ n ≥ N, similarityCalls image reference metric search threshold
        [List.range (searchRows image reference)] (List.replicate n 0) =
      (scanCandidates (searchColumns image reference) (searchRows image reference)).takeWhile
          (fun c => threshold < similarityScore image reference metric search c.1 c.2) ++
        ((scanCandidates (searchColumns image reference) (searchRows image reference)).dropWhile
          fun c => threshold < similarityScore image reference metric search c.1 c.2).take 1 := by
  obtain ⟨N, hN⟩ := scanCalls_single (searchEnv image reference metric search threshold)
    (magickMaximumValue : EReal) _ hok
  refine ⟨N, fun n hn => ?_⟩
  rw [similarityCalls, if_neg (by simp [hmorph, hclone]), hN n hn,
    visitCalls_eq _ _ _ (not_le.mpr hthr)]
  rfl

end Search

theorem similarityScan_finished_blackRed :
    (∀ w < [[0]].length, (7 * searchColumns blackRedImage (redPixelImage 0 0) + 6) *
        ([[0]].getD w []).length + 1 ≤ (List.replicate 21 0).count w) ∧
      (similarityScan blackRedImage (redPixelImage 0 0) .absoluteErrorMetric okSearch
        defaultSimilarityThreshold [[0]] (List.replicate 21 0)).Finished [[0]].length :=
  have hturns : ∀ w < [[0]].length, (7 * searchColumns blackRedImage (redPixelImage 0 0) + 6) *
      ([[0]].getD w []).length + 1 ≤ (List.replicate 21 0).count w := fun w hw => by
    obtain rfl : w = 0 := by simpa using hw
    rw [searchColumns_eq (by norm_num [blackRedImage, redImage]) (by norm_num [redPixelImage])]
    decide
  ⟨hturns, similarityScan_finished defaultSimilarityThreshold [[0]] (List.replicate 21 0) hturns⟩

theorem similarityCalls_single_worker_blackRed :
    validateImageMorphology blackRedImage (redPixelImage 0 0) = true ∧ okSearch.cloneOk = true ∧
    (∀ y < searchRows blackRedImage (redPixelImage 0 0), okSearch.rowOk y = true ∧
      okSearch.syncOk y = true) ∧ defaultSimilarityThreshold < magickMaximumValue ∧
    ∃ N, ∀ n ≥ N, similarityCalls blackRedImage (redPixelImage 0 0) .absoluteErrorMetric okSearch
        defaultSimilarityThreshold [List.range (searchRows blackRedImage (redPixelImage 0 0))]
        (List.replicate n 0) =
      (scanCandidates (searchColumns blackRedImage (redPixelImage 0 0))
          (searchRows blackRedImage (redPixelImage 0 0))).takeWhile
          (fun c => defaultSimilarityThreshold <
            similarityScore blackRedImage (redPixelImage 0 0) .absoluteErrorMetric okSearch
              c.1 c.2) ++
        ((scanCandidates (searchColumns blackRedImage (redPixelImage 0 0))
          (searchRows blackRedImage (redPixelImage 0 0))).dropWhile
          fun c => defaultSimilarityThreshold <
            similarityScore blackRedImage (redPixelImage 0 0) .absoluteErrorMetric okSearch
              c.1 c.2).take 1 :=
  have hthr : defaultSimilarityThreshold < magickMaximumValue :=
    (defaultSimilarityThreshold_lt_zero.trans zero_lt_one).trans magickMaximumValue_gt_one
  ⟨rfl, rfl, fun _ _ => ⟨rfl, rfl⟩, hthr,
    similarityCalls_single_worker defaultSimilarityThreshold rfl rfl (fun _ _ => ⟨rfl, rfl⟩) hthr⟩

end

end MagickCompare
