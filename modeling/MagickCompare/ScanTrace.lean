import MagickCompare.ScanCalls
/-! What the row loop of `SimilarityMetricImage` writes, over any interleaving.

Between its call of `GetSimilarityMetric` and its pixel write a worker carries the
candidate and its score, and every shared write copies what the writing worker carries.
So whatever the schedule and whatever fails, each written pixel of the confidence map
holds its own offset's score, the best score is the initial one or the score of an offset
passed to `GetSimilarityMetric`, and each coordinate of the best offset is 0 or that of
such an offset: a race can pair the coordinates of two candidates, but never invents one.
A finished run without a failure or a score at or below the threshold has written the
score of every candidate. -/

namespace MagickCompare

/-- The candidate a worker has scored and not yet written to the confidence map, with its
score: from the comparison with `*similarity_metric` to `SetPixelRed`. -/
def ScanPhase.pending {S : Type*} : ScanPhase S → Option (ℕ × ℕ × S)
  | .compare y x s | .writeMetric y x s | .writeOffsetX y x s | .writeOffsetY y x s
  | .writePixel y x s => some (x, y, s)
  | _ => none

section Trace

variable {S : Type*} [LinearOrder S] (env : ScanEnv S)

/-- The shared writes of a step: each shared variable is left alone, or written by the
step's worker from the candidate it carries. -/
theorem scanStep_shared (st : ScanState S) (w : ℕ) :
    let sh := st.shared
    let sh' := (scanStep env st w).shared
    (sh'.similarityMetric = sh.similarityMetric ∨
        ∃ y x, (st.workers w).phase = .writeMetric y x sh'.similarityMetric) ∧
    (sh'.offsetX = sh.offsetX ∨ ∃ y s, (st.workers w).phase = .writeOffsetX y sh'.offsetX s) ∧
    (sh'.offsetY = sh.offsetY ∨ ∃ x s, (st.workers w).phase = .writeOffsetY sh'.offsetY x s) ∧
    (sh'.map = sh.map ∨
      ∃ y x s, (st.workers w).phase = .writePixel y x s ∧ sh'.map = setPixel sh.map x y s) := by
  simp only [scanStep]
  split <;> (try split) <;> simp_all
  exact .inr ⟨_, _, _, ⟨rfl, rfl, rfl⟩, rfl⟩

theorem scanStep_pending (st : ScanState S) (w : ℕ) {x y : ℕ} {s : S}
    (h : ((scanStep env st w).workers w).phase.pending = some (x, y, s)) :
    ((st.workers w).phase = .evaluate y x ∧ s = env.score x y) ∨
      (st.workers w).phase.pending = some (x, y, s) := by
  simp only [scanStep] at h
  split at h <;> (try split at h) <;> simp_all [ScanPhase.pending]
  obtain ⟨rfl, rfl, rfl⟩ := h
  rfl

theorem scanStep_of_pending (st : ScanState S) (w : ℕ) {x y : ℕ} {s : S}
    (h : (st.workers w).phase.pending = some (x, y, s)) :
    ((scanStep env st w).workers w).phase.pending = some (x, y, s) ∨
      (scanStep env st w).shared.map x y = some s := by
  simp only [scanStep]
  split <;> (try split) <;> simp_all [ScanPhase.pending, setPixel]

/-! ### What every run writes -/

/-- What the shared variables and the workers hold after the calls `calls`: each
carried score and each written pixel is the score of its own offset, an offset that was
passed to `GetSimilarityMetric`; the best score is the initial one or such a score; each
coordinate of the best offset is 0 or that of such an offset. -/
structure TraceInv (init : S) (calls : List (ℕ × ℕ)) (st : ScanState S) : Prop where
  carried : ∀ w x y s, (st.workers w).phase.pending = some (x, y, s) →
    s = env.score x y ∧ (x, y) ∈ calls
  map : ∀ x y s, st.shared.map x y = some s → s = env.score x y ∧ (x, y) ∈ calls
  metric : st.shared.similarityMetric = init ∨
    ∃ c ∈ calls, st.shared.similarityMetric = env.score c.1 c.2
  offsetX : st.shared.offsetX = 0 ∨ ∃ c ∈ calls, st.shared.offsetX = c.1
  offsetY : st.shared.offsetY = 0 ∨ ∃ c ∈ calls, st.shared.offsetY = c.2

omit [LinearOrder S] in
theorem traceInv_scanStart (init : S) (queues : List (List ℕ)) :
    TraceInv env init [] (scanStart init queues) :=
  ⟨fun _ _ _ _ h => by simp [scanStart, ScanPhase.pending] at h,
    fun _ _ _ h => by simp [scanStart] at h, .inl rfl, .inl rfl, .inl rfl⟩

theorem traceInv_scanStep {init : S} {calls : List (ℕ × ℕ)} {st : ScanState S}
    (hinv : TraceInv env init calls st) (w : ℕ) :
    TraceInv env init (calls ++ stepCalls st w) (scanStep env st w) := by
  have hsub : ∀ c ∈ calls, c ∈ calls ++ stepCalls st w := fun c hc => List.mem_append_left _ hc
  have hcarried : ∀ w' x y s, (st.workers w').phase.pending = some (x, y, s) →
      s = env.score x y ∧ (x, y) ∈ calls ++ stepCalls st w := fun w' x y s h =>
    (hinv.carried w' x y s h).imp_right (hsub _)
  obtain ⟨hm, hx, hy, hmap⟩ := scanStep_shared env st w
  refine ⟨fun w' x y s h => ?_, fun x y s h => ?_, ?_, ?_, ?_⟩
  · by_cases hw : w' = w
    · subst hw
      rcases scanStep_pending env st w' h with ⟨he, rfl⟩ | hp
      · exact ⟨rfl, List.mem_append_right _ (by simp [stepCalls, he])⟩
      · exact hcarried w' x y s hp
    · rw [scanStep_workers_ne env st hw] at h
      exact hcarried w' x y s h
  · rcases hmap with hmap | ⟨y', x', s', hp, hmap⟩
    · rw [hmap] at h
      exact (hinv.map x y s h).imp_right (hsub _)
    · rw [hmap, setPixel] at h
      split_ifs at h with hxy
      · obtain ⟨rfl, rfl⟩ := hxy
        cases h
        exact hcarried w x y s (by simp [hp, ScanPhase.pending])
      · exact (hinv.map x y s h).imp_right (hsub _)
  · rcases hm with hm | ⟨y, x, hp⟩
    · rw [hm]
      exact hinv.metric.imp_right fun ⟨c, hc, h⟩ => ⟨c, hsub c hc, h⟩
    · obtain ⟨he, hc⟩ := hcarried w x y (scanStep env st w).shared.similarityMetric
        (by simp [hp, ScanPhase.pending])
      exact .inr ⟨(x, y), hc, he⟩
  · rcases hx with hx | ⟨y, s, hp⟩
    · rw [hx]
      exact hinv.offsetX.imp_right fun ⟨c, hc, h⟩ => ⟨c, hsub c hc, h⟩
    · exact .inr ⟨_, (hcarried w _ y s (by simp [hp, ScanPhase.pending])).2, rfl⟩
  · rcases hy with hy | ⟨x, s, hp⟩
    · rw [hy]
      exact hinv.offsetY.imp_right fun ⟨c, hc, h⟩ => ⟨c, hsub c hc, h⟩
    · exact .inr ⟨_, (hcarried w x _ s (by simp [hp, ScanPhase.pending])).2, rfl⟩

/-- Over any interleaving and whatever fails, a run keeps the trace invariant, with the
calls it made added. -/
theorem traceInv_runScan {init : S} (turns : List ℕ) : ∀ (calls : List (ℕ × ℕ)) (st : ScanState S),
    TraceInv env init calls st →
      TraceInv env init (calls ++ scanCalls env st turns) (runScan env st turns) := by
  induction turns with
  | nil => intro calls st h; simpa [scanCalls, runScan] using h
  | cons w ws ih =>
    intro calls st h
    have := ih _ _ (traceInv_scanStep env h w)
    rwa [List.append_assoc] at this

/-! ### What a run without a drop writes -/

variable {n : ℕ}

/-- Each candidate of `cands` is still owed, carried by one of the first `n` workers, or
written to the map with its score. -/
def Covered (n : ℕ) (cands : List (ℕ × ℕ)) (st : ScanState S) : Prop :=
  ∀ c ∈ cands, c ∈ owedAll env.columns st n ∨
    (∃ w < n, ∃ s, (st.workers w).phase.pending = some (c.1, c.2, s)) ∨
    st.shared.map c.1 c.2 = some (env.score c.1 c.2)

theorem covered_scanStep (hok : ∀ y, env.rowOk y = true ∧ env.syncOk y = true)
    {init : S} {calls cands : List (ℕ × ℕ)} {st : ScanState S}
    (hexact : ExactInv env n st) (htrace : TraceInv env init calls st)
    (hcov : Covered env n cands st) (w : ℕ) : Covered env n cands (scanStep env st w) := by
  have hkeep : ∀ x y, st.shared.map x y = some (env.score x y) →
      (scanStep env st w).shared.map x y = some (env.score x y) := fun x y h => by
    rcases (scanStep_shared env st w).2.2.2 with hmap | ⟨y', x', s', hp, hmap⟩
    · rwa [hmap]
    · rw [hmap, setPixel]
      split_ifs with hxy
      · obtain ⟨rfl, rfl⟩ := hxy
        rw [(htrace.carried w x y s' (by simp [hp, ScanPhase.pending])).1]
      · exact h
  intro c hc
  rcases hcov c hc with ho | ⟨w', hw', s, hp⟩ | hm
  · rw [← (owedAll_scanStep env hexact.calls w).2 hexact.status (not_le.mpr hexact.metric)
      fun y => (hok y).1, Multiset.mem_add] at ho
    rcases ho with hcall | ho
    · -- worker `w` calls `GetSimilarityMetric` for `c`, and carries it after the step
      have he := mem_stepCalls.mp (Multiset.mem_coe.mp hcall)
      have hw : w < n := by
        by_contra hn
        have := hexact.calls.idle w (not_lt.mp hn)
        simp [owedCalls, he, rowFrom_of_lt _ (hexact.calls.bound w c.2 c.1 he)] at this
      exact .inr (.inl ⟨w, hw, env.score c.1 c.2, by simp [scanStep, he, ScanPhase.pending]⟩)
    · exact .inl ho
  · by_cases hw : w' = w
    · subst hw
      rcases scanStep_of_pending env st w' hp with hp' | hm
      · exact .inr (.inl ⟨w', hw', s, hp'⟩)
      · rw [(htrace.carried w' c.1 c.2 s hp).1] at hm
        exact .inr (.inr hm)
    · exact .inr (.inl ⟨w', hw', s, by rwa [scanStep_workers_ne env st hw]⟩)
  · exact .inr (.inr (hkeep c.1 c.2 hm))

theorem covered_runScan (hok : ∀ y, env.rowOk y = true ∧ env.syncOk y = true) {init : S}
    (cands : List (ℕ × ℕ)) (turns : List ℕ) : ∀ (calls : List (ℕ × ℕ)) (st : ScanState S),
      ExactInv env n st → TraceInv env init calls st → Covered env n cands st →
        Covered env n cands (runScan env st turns) := by
  induction turns with
  | nil => exact fun _ _ _ _ h => h
  | cons w ws ih =>
    exact fun calls st hexact htrace hcov => ih _ _ (exactInv_scanStep env hok hexact w)
      (traceInv_scanStep env htrace w) (covered_scanStep env hok hexact htrace hcov w)

/-- A finished run without a failed row access or sync, from a best score above the
threshold and with no candidate scoring at or below it, has written the score of every
candidate of the queued rows to the confidence map, and nothing else. -/
theorem runScan_map_of_exact (hok : ∀ y, env.rowOk y = true ∧ env.syncOk y = true) {init : S}
    (hinit : env.threshold < init) {queues : List (List ℕ)}
    (hscore : ∀ c ∈ queuedCalls env.columns queues.flatten, env.threshold < env.score c.1 c.2)
    {turns : List ℕ} (hfin : (runScan env (scanStart init queues) turns).Finished queues.length)
    (x y : ℕ) :
    (runScan env (scanStart init queues) turns).shared.map x y =
      if (x, y) ∈ queuedCalls env.columns queues.flatten then some (env.score x y) else none := by
  have hcov := covered_runScan env hok (queuedCalls env.columns queues.flatten) turns [] _
    (exactInv_scanStart env hinit hscore) (traceInv_scanStart env init queues)
    fun c hc => .inl (by rw [owedAll_scanStart]; exact Multiset.mem_coe.mpr hc)
  split_ifs with hq
  · rcases hcov _ hq with ho | ⟨w, hw, s, hp⟩ | hm
    · rw [owedAll_of_finished env.columns hfin] at ho
      exact absurd ho (Multiset.not_mem_zero _)
    · rw [hfin w hw] at hp
      cases hp
    · exact hm
  · rcases hm : (runScan env (scanStart init queues) turns).shared.map x y with _ | s
    · rfl
    · have hcall := ((traceInv_runScan env turns [] _ (traceInv_scanStart env init queues)).map
        x y s hm).2
      rw [List.nil_append] at hcall
      exact absurd ((scanCalls_subperm env init queues turns).subset hcall) hq

end Trace

end MagickCompare
