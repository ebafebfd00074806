import Mathlib.Order.Basic
import Mathlib.Data.List.Sort
import Mathlib.Data.List.Range
/-! The row loop of `SimilarityMetricImage` as a concurrent program, and the serial loop of
a build without OpenMP.

Each worker runs the loop body over the rows the static schedule gave it. The shared
variables are `status`, `*similarity_metric`, `offset->x`, `offset->y` and the confidence
map; every read or write of one is a step of its own, as in the source: the `omp critical`
before the best-pair update governs only the normalisation statement that follows it.
Scores are of any linear order; the search instantiates them with its distortions. -/

namespace MagickCompare

/-- Where a worker is in the loop body. -/
inductive ScanPhase (S : Type*)
  | nextRow
  | rowStatus (y : ℕ)
  | rowThreshold (y : ℕ)
  | rowAccess (y : ℕ)
  | columnThreshold (y x : ℕ)
  | evaluate (y x : ℕ)
  | compare (y x : ℕ) (similarity : S)
  | writeMetric (y x : ℕ) (similarity : S)
  | writeOffsetX (y x : ℕ) (similarity : S)
  | writeOffsetY (y x : ℕ) (similarity : S)
  | writePixel (y x : ℕ) (similarity : S)
  | rowSync (y : ℕ)
  | done

structure ScanWorker (S : Type*) where
  rows : List ℕ
  phase : ScanPhase S

structure ScanShared (S : Type*) where
  status : Bool
  similarityMetric : S
  offsetX : ℕ
  offsetY : ℕ
  map : ℕ → ℕ → Option S

structure ScanState (S : Type*) where
  shared : ScanShared S
  workers : ℕ → ScanWorker S

/-- What the loop reads besides the shared variables: the number of candidate columns,
the threshold, each candidate's score after the correlation normalisation, and which row
accesses and which syncs (with the progress monitor) succeed. -/
structure ScanEnv (S : Type*) where
  columns : ℕ
  threshold : S
  score : ℕ → ℕ → S
  rowOk : ℕ → Bool
  syncOk : ℕ → Bool

/-- `SetPixelRed(q,...)` of the candidate `(x, y)`. -/
def setPixel {S : Type*} (map : ℕ → ℕ → Option S) (x y : ℕ) (s : S) : ℕ → ℕ → Option S :=
  fun x' y' => if x' = x ∧ y' = y then some s else map x' y'

def ScanState.set {S : Type*} (st : ScanState S) (w : ℕ) (sh : ScanShared S) (rows : List ℕ)
    (p : ScanPhase S) : ScanState S :=
  ⟨sh, Function.update st.workers w ⟨rows, p⟩⟩

@[simp] theorem ScanState.set_shared (st : ScanState S) (w : ℕ) (sh : ScanShared S)
    (rows : List ℕ) (p : ScanPhase S) : (st.set w sh rows p).shared = sh := rfl

@[simp] theorem ScanState.set_workers_self (st : ScanState S) (w : ℕ) (sh : ScanShared S)
    (rows : List ℕ) (p : ScanPhase S) : (st.set w sh rows p).workers w = ⟨rows, p⟩ :=
  Function.update_same _ _ _

@[simp] theorem ScanState.set_set (st : ScanState S) (w : ℕ) (sh sh' : ScanShared S)
    (rows rows' : List ℕ) (p p' : ScanPhase S) :
    (st.set w sh rows p).set w sh' rows' p' = st.set w sh' rows' p' := by
  simp [ScanState.set, Function.update_idem]

/-- Every one of the first `workers` workers has left the loop. -/
def ScanState.Finished {S : Type*} (st : ScanState S) (workers : ℕ) : Prop :=
  ∀ w < workers, (st.workers w).phase = .done

theorem ScanState.finished_two {S : Type*} {st : ScanState S} (h₀ : (st.workers 0).phase = .done)
    (h₁ : (st.workers 1).phase = .done) : st.Finished 2 := fun w hw => by
  rcases w with _ | _ | w
  exacts [h₀, h₁, absurd hw (by omega)]

/-- The start of the loop: `status=MagickTrue`, `*similarity_metric` at its initial value,
the offset of `SetGeometry`, and each worker before its first row. -/
def scanStart {S : Type*} (init : S) (queues : List (List ℕ)) : ScanState S :=
  ⟨⟨true, init, 0, 0, fun _ _ => none⟩, fun w => ⟨queues.getD w [], .nextRow⟩⟩

section Machine

variable {S : Type*} [LinearOrder S] (env : ScanEnv S)

/-- One step of worker `w`. -/
def scanStep (st : ScanState S) (w : ℕ) : ScanState S :=
  let sh := st.shared
  let rows := (st.workers w).rows
  match (st.workers w).phase with
  | .nextRow =>
    match rows with
    | [] => st.set w sh [] .done
    | y :: rest => st.set w sh rest (.rowStatus y)
  | .rowStatus y => st.set w sh rows (if sh.status then .rowThreshold y else .nextRow)
  | .rowThreshold y =>
    st.set w sh rows (if sh.similarityMetric ≤ env.threshold then .nextRow else .rowAccess y)
  | .rowAccess y =>
    if env.rowOk y then st.set w sh rows (.columnThreshold y 0)
    else st.set w { sh with status := false } rows .nextRow
  | .columnThreshold y x =>
    st.set w sh rows (if x < env.columns ∧ ¬sh.similarityMetric ≤ env.threshold then .evaluate y x
      else .rowSync y)
  | .evaluate y x => st.set w sh rows (.compare y x (env.score x y))
  | .compare y x s =>
    st.set w sh rows (if s < sh.similarityMetric then .writeMetric y x s else .writePixel y x s)
  | .writeMetric y x s => st.set w { sh with similarityMetric := s } rows (.writeOffsetX y x s)
  | .writeOffsetX y x s => st.set w { sh with offsetX := x } rows (.writeOffsetY y x s)
  | .writeOffsetY y x s => st.set w { sh with offsetY := y } rows (.writePixel y x s)
  | .writePixel y x s =>
    st.set w { sh with map := setPixel sh.map x y s } rows (.columnThreshold y (x + 1))
  | .rowSync y =>
    st.set w (if env.syncOk y then sh else { sh with status := false }) rows .nextRow
  | .done => st

def runScan (st : ScanState S) (turns : List ℕ) : ScanState S := turns.foldl (scanStep env) st

theorem runScan_append (st : ScanState S) (a b : List ℕ) :
    runScan env st (a ++ b) = runScan env (runScan env st a) b := List.foldl_append _ _ _ _

theorem runScan_done {st : ScanState S} {w : ℕ} (h : (st.workers w).phase = .done) (n : ℕ) :
    runScan env st (List.replicate n w) = st := by
  induction n with
  | zero => rfl
  | succ n ih =>
    rw [List.replicate_succ', runScan_append, ih]
    simp [runScan, scanStep, h]

theorem scanStep_status (hok : ∀ y, env.rowOk y = true ∧ env.syncOk y = true)
    {st : ScanState S} (h : st.shared.status = true) (w : ℕ) :
    (scanStep env st w).shared.status = true := by
  simp only [scanStep]
  split <;> (try split) <;> simp_all

/-- Without a failed row access or sync, `status` stays set, whatever the schedule. -/
theorem runScan_status (hok : ∀ y, env.rowOk y = true ∧ env.syncOk y = true)
    (turns : List ℕ) : ∀ st : ScanState S, st.shared.status = true →
      (runScan env st turns).shared.status = true := by
  induction turns with
  | nil => exact fun _ h => h
  | cons w turns ih => exact fun st h => ih _ (scanStep_status env hok h w)

/-! ### The serial loop -/

/-- One candidate: its score, the best-pair update, its confidence pixel. -/
def scanCandidate (sh : ScanShared S) (c : ℕ × ℕ) : ScanShared S :=
  let s := env.score c.1 c.2
  let sh := if s < sh.similarityMetric then
      { sh with similarityMetric := s, offsetX := c.1, offsetY := c.2 } else sh
  { sh with map := setPixel sh.map c.1 c.2 s }

/-- The column loop, left by `break` once the best score is at or below the threshold. -/
def scanColumns (y : ℕ) : List ℕ → ScanShared S → ScanShared S
  | [], sh => sh
  | x :: xs, sh =>
    if sh.similarityMetric ≤ env.threshold then sh else scanColumns y xs (scanCandidate env sh (x, y))

def scanRow (sh : ScanShared S) (y : ℕ) : ScanShared S :=
  if sh.status = false ∨ sh.similarityMetric ≤ env.threshold then sh
  else if env.rowOk y = false then { sh with status := false }
  else
    let sh := scanColumns env y (List.range env.columns) sh
    if env.syncOk y then sh else { sh with status := false }

def serialScan (init : S) (rows : ℕ) : ScanShared S :=
  (List.range rows).foldl (scanRow env) (scanStart init []).shared

/-! ### One worker runs the serial loop -/

section Refinement

variable (st : ScanState S) (w y : ℕ) (rows : List ℕ)

theorem runScan_trans {sh₁ sh₂ sh₃ : ScanShared S} {rows₁ rows₂ rows₃ : List ℕ}
    {p₁ p₂ p₃ : ScanPhase S}
    (h₁ : ∃ n, runScan env (st.set w sh₁ rows₁ p₁) (List.replicate n w) = st.set w sh₂ rows₂ p₂)
    (h₂ : ∃ n, runScan env (st.set w sh₂ rows₂ p₂) (List.replicate n w) = st.set w sh₃ rows₃ p₃) :
    ∃ n, runScan env (st.set w sh₁ rows₁ p₁) (List.replicate n w) = st.set w sh₃ rows₃ p₃ := by
  obtain ⟨n₁, h₁⟩ := h₁
  obtain ⟨n₂, h₂⟩ := h₂
  exact ⟨n₁ + n₂, by rw [List.replicate_add, runScan_append, h₁, h₂]⟩

theorem runScan_candidate {x : ℕ} {sh : ScanShared S} (hx : x < env.columns)
    (ht : ¬sh.similarityMetric ≤ env.threshold) :
    ∃ n, runScan env (st.set w sh rows (.columnThreshold y x)) (List.replicate n w) =
      st.set w (scanCandidate env sh (x, y)) rows (.columnThreshold y (x + 1)) := by
  by_cases hs : env.score x y < sh.similarityMetric
  · exact ⟨7, by simp [runScan, scanStep, hx, ht, hs, scanCandidate]⟩
  · exact ⟨4, by simp [runScan, scanStep, hx, ht, hs, scanCandidate]⟩

/-- The steps of one row's column loop give `scanColumns`. -/
theorem runScan_columns (k : ℕ) : ∀ x sh, x + k = env.columns →
    ∃ n, runScan env (st.set w sh rows (.columnThreshold y x)) (List.replicate n w) =
      st.set w (scanColumns env y (List.range' x k) sh) rows (.rowSync y) := by
  induction k with
  | zero =>
    intro x sh hx
    have hx : ¬x < env.columns := by omega
    exact ⟨1, by simp [runScan, scanStep, scanColumns, hx]⟩
  | succ k ih =>
    intro x sh hx
    by_cases ht : sh.similarityMetric ≤ env.threshold
    · exact ⟨1, by simp [runScan, scanStep, scanColumns, ht]⟩
    · rw [List.range'_succ, scanColumns, if_neg ht]
      exact runScan_trans env st w (runScan_candidate env st w y rows (by omega) ht)
        (ih (x + 1) _ (by omega))

theorem runScan_row (sh : ScanShared S) :
    ∃ n, runScan env (st.set w sh rows (.rowStatus y)) (List.replicate n w) =
      st.set w (scanRow env sh y) rows .nextRow := by
  by_cases hs : sh.status = false
  · exact ⟨1, by simp [runScan, scanStep, scanRow, hs]⟩
  by_cases ht : sh.similarityMetric ≤ env.threshold
  · exact ⟨2, by simp [runScan, scanStep, scanRow, hs, ht]⟩
  by_cases hok : env.rowOk y = false
  · exact ⟨3, by simp [runScan, scanStep, scanRow, hs, ht, hok]⟩
  have hcols := runScan_columns env st w y rows env.columns 0 sh (Nat.zero_add _)
  rw [← List.range_eq_range'] at hcols
  refine runScan_trans env st w ⟨3, ?_⟩ (runScan_trans env st w hcols ⟨1, ?_⟩)
  · simp [runScan, scanStep, hs, ht, hok]
  · simp only [scanRow, hs, ht, hok, false_or, if_false]
    simp [runScan, scanStep]

theorem runScan_rows (ys : List ℕ) : ∀ sh : ScanShared S,
    ∃ n, runScan env (st.set w sh ys .nextRow) (List.replicate n w) =
      st.set w (ys.foldl (scanRow env) sh) [] .done := by
  induction ys with
  | nil => exact fun sh => ⟨1, by simp [runScan, scanStep]⟩
  | cons y ys ih =>
    exact fun sh => runScan_trans env st w ⟨1, by simp [runScan, scanStep]⟩
      (runScan_trans env st w (runScan_row env st w y ys sh) (ih _))

/-- One worker given every row computes, once it has run long enough, what the serial
loop computes. -/
theorem runScan_single (init : S) (rows : ℕ) :
    ∃ N, ∀ n ≥ N, (runScan env (scanStart init [List.range rows]) (List.replicate n 0)).shared =
      serialScan env init rows := by
  have hstart : (scanStart init [List.range rows]).set 0 (scanStart init []).shared
      (List.range rows) .nextRow = scanStart init [List.range rows] :=
    congrArg (ScanState.mk _) (Function.update_eq_self 0 _)
  obtain ⟨N, hN⟩ := runScan_rows env (scanStart init [List.range rows]) 0 (List.range rows)
    (scanStart init []).shared
  refine ⟨N, fun n hn => ?_⟩
  obtain ⟨k, rfl⟩ := Nat.exists_eq_add_of_le hn
  rw [← hstart, List.replicate_add, runScan_append, hN, runScan_done env (by simp) k]
  rfl

end Refinement

/-! ### The serial loop visits the candidates in row-major order -/

/-- The candidates in the order the serial loop visits them: row by row, left to right. -/
def scanCandidates (columns rows : ℕ) : List (ℕ × ℕ) :=
  (List.range rows).flatMap fun y => (List.range columns).map fun x => (x, y)

theorem mem_scanCandidates {columns rows : ℕ} {c : ℕ × ℕ} :
    c ∈ scanCandidates columns rows ↔ c.1 < columns ∧ c.2 < rows := by
  obtain ⟨x, y⟩ := c
  simp only [scanCandidates, List.mem_flatMap, List.mem_range, List.mem_map, Prod.mk.injEq]
  constructor
  · rintro ⟨y', hy', x', hx', rfl, rfl⟩
    exact ⟨hx', hy'⟩
  · rintro ⟨hx, hy⟩
    exact ⟨y, hy, x, hx, rfl, rfl⟩

/-- A candidate of the serial loop: skipped once the best score is at or below the
threshold. -/
def visitCandidate (sh : ScanShared S) (c : ℕ × ℕ) : ScanShared S :=
  if sh.similarityMetric ≤ env.threshold then sh else scanCandidate env sh c

theorem foldl_visitCandidate_stop {sh : ScanShared S} (h : sh.similarityMetric ≤ env.threshold)
    (l : List (ℕ × ℕ)) : l.foldl (visitCandidate env) sh = sh := by
  induction l with
  | nil => rfl
  | cons c l ih => simpa [visitCandidate, h] using ih

theorem scanCandidate_metric (sh : ScanShared S) (c : ℕ × ℕ) :
    (scanCandidate env sh c).similarityMetric = min (env.score c.1 c.2) sh.similarityMetric := by
  simp only [scanCandidate]
  split_ifs with h
  · exact (min_eq_left h.le).symm
  · exact (min_eq_right (not_lt.mp h)).symm

theorem scanCandidate_status (sh : ScanShared S) (c : ℕ × ℕ) :
    (scanCandidate env sh c).status = sh.status := by
  simp only [scanCandidate]; split_ifs <;> rfl

theorem foldl_visitCandidate_status (l : List (ℕ × ℕ)) (sh : ScanShared S) :
    (l.foldl (visitCandidate env) sh).status = sh.status := by
  induction l generalizing sh with
  | nil => rfl
  | cons c l ih =>
    rw [List.foldl_cons, ih, visitCandidate]
    split_ifs
    · rfl
    · exact scanCandidate_status env sh c

/-- Without failures, the column loop and the row loop visit the candidates in order. -/
theorem scanColumns_eq (y : ℕ) (xs : List ℕ) (sh : ScanShared S) :
    scanColumns env y xs sh = (xs.map fun x => (x, y)).foldl (visitCandidate env) sh := by
  induction xs generalizing sh with
  | nil => rfl
  | cons x xs ih =>
    by_cases h : sh.similarityMetric ≤ env.threshold
    · simp [scanColumns, h, foldl_visitCandidate_stop env h]
    · simp [scanColumns, h, ih, visitCandidate]

theorem foldl_scanRow_eq (ys : List ℕ) (hok : ∀ y ∈ ys, env.rowOk y = true ∧ env.syncOk y = true)
    (sh : ScanShared S) (hs : sh.status = true) :
    ys.foldl (scanRow env) sh =
      (ys.flatMap fun y => (List.range env.columns).map fun x => (x, y)).foldl (visitCandidate env) sh := by
  induction ys generalizing sh with
  | nil => rfl
  | cons y ys ih =>
    obtain ⟨hr, hsy⟩ := hok y (List.mem_cons_self _ _)
    rw [List.flatMap_cons, List.foldl_append, List.foldl_cons]
    by_cases h : sh.similarityMetric ≤ env.threshold
    · rw [foldl_visitCandidate_stop env h]
      simp only [scanRow, h, or_true, if_true]
      exact ih (fun z hz => hok z (List.mem_cons_of_mem _ hz)) sh hs
    · have hrow : scanRow env sh y = ((List.range env.columns).map fun x => (x, y)).foldl (visitCandidate env) sh := by
        simp [scanRow, hs, h, hr, hsy, scanColumns_eq]
      rw [hrow]
      exact ih (fun z hz => hok z (List.mem_cons_of_mem _ hz)) _
        (by rw [foldl_visitCandidate_status, hs])

theorem serialScan_eq (init : S) (rows : ℕ)
    (hok : ∀ y < rows, env.rowOk y = true ∧ env.syncOk y = true) :
    serialScan env init rows =
      (scanCandidates env.columns rows).foldl (visitCandidate env) (scanStart init []).shared :=
  foldl_scanRow_eq env _ (fun y hy => hok y (List.mem_range.mp hy)) _ rfl

theorem foldl_visitCandidate_metric_le (l : List (ℕ × ℕ)) (sh : ScanShared S) :
    (l.foldl (visitCandidate env) sh).similarityMetric ≤ sh.similarityMetric := by
  induction l generalizing sh with
  | nil => exact le_rfl
  | cons c l ih =>
    refine (ih _).trans ?_
    rw [visitCandidate]
    split_ifs
    · exact le_rfl
    · rw [scanCandidate_metric]; exact min_le_right _ _

/-- A run that ends above the threshold evaluated every candidate, and its best score is
at most each of their scores. -/
theorem foldl_visitCandidate_le_score (l : List (ℕ × ℕ)) (sh : ScanShared S)
    (ht : env.threshold < (l.foldl (visitCandidate env) sh).similarityMetric) :
    ∀ c ∈ l, (l.foldl (visitCandidate env) sh).similarityMetric ≤ env.score c.1 c.2 := by
  induction l generalizing sh with
  | nil => simp
  | cons c l ih =>
    have hsh : ¬sh.similarityMetric ≤ env.threshold := fun h => by
      rw [List.foldl_cons, visitCandidate, if_pos h, foldl_visitCandidate_stop env h] at ht
      exact absurd h (not_le.mpr ht)
    rw [List.foldl_cons, visitCandidate, if_neg hsh] at ht ⊢
    intro c' hc'
    rcases List.mem_cons.mp hc' with rfl | hc'
    · exact (foldl_visitCandidate_metric_le env l _).trans
        ((scanCandidate_metric env sh c').symm ▸ min_le_left _ _)
    · exact ih _ ht c' hc'

theorem scanCandidate_map_of (sh : ScanShared S) (c c' : ℕ × ℕ)
    (h : sh.map c'.1 c'.2 = some (env.score c'.1 c'.2)) :
    (scanCandidate env sh c).map c'.1 c'.2 = some (env.score c'.1 c'.2) := by
  simp only [scanCandidate]
  split_ifs <;> simp only [setPixel] <;> split_ifs with hc <;>
    first | exact h | rw [hc.1, hc.2]

theorem scanCandidate_map_self (sh : ScanShared S) (c : ℕ × ℕ) :
    (scanCandidate env sh c).map c.1 c.2 = some (env.score c.1 c.2) := by
  simp only [scanCandidate]
  split_ifs <;> simp [setPixel]

theorem foldl_visitCandidate_map_of (l : List (ℕ × ℕ)) (c : ℕ × ℕ) :
    ∀ sh : ScanShared S, sh.map c.1 c.2 = some (env.score c.1 c.2) →
      (l.foldl (visitCandidate env) sh).map c.1 c.2 = some (env.score c.1 c.2) := by
  induction l with
  | nil => exact fun _ h => h
  | cons c' l ih =>
    intro sh h
    rw [List.foldl_cons, visitCandidate]
    split_ifs
    · exact ih sh h
    · exact ih _ (scanCandidate_map_of env sh c' c h)

/-- A run that ends above the threshold has the confidence pixel of every candidate. -/
theorem foldl_visitCandidate_map (l : List (ℕ × ℕ)) (sh : ScanShared S)
    (ht : env.threshold < (l.foldl (visitCandidate env) sh).similarityMetric) :
    ∀ c ∈ l, (l.foldl (visitCandidate env) sh).map c.1 c.2 = some (env.score c.1 c.2) := by
  induction l generalizing sh with
  | nil => simp
  | cons c l ih =>
    have hsh : ¬sh.similarityMetric ≤ env.threshold := fun h => by
      rw [List.foldl_cons, visitCandidate, if_pos h, foldl_visitCandidate_stop env h] at ht
      exact absurd h (not_le.mpr ht)
    rw [List.foldl_cons, visitCandidate, if_neg hsh] at ht ⊢
    intro c' hc'
    rcases List.mem_cons.mp hc' with rfl | hc'
    · exact foldl_visitCandidate_map_of env l c' _ (scanCandidate_map_self env sh c')
    · exact ih _ ht c' hc'

theorem scanCandidate_of_lt {sh : ScanShared S} {c : ℕ × ℕ}
    (h : env.score c.1 c.2 < sh.similarityMetric) :
    (scanCandidate env sh c).similarityMetric = env.score c.1 c.2 ∧
      (scanCandidate env sh c).offsetX = c.1 ∧ (scanCandidate env sh c).offsetY = c.2 := by
  simp [scanCandidate, h]

theorem scanCandidate_of_not_lt {sh : ScanShared S} {c : ℕ × ℕ}
    (h : ¬env.score c.1 c.2 < sh.similarityMetric) :
    (scanCandidate env sh c).similarityMetric = sh.similarityMetric ∧
      (scanCandidate env sh c).offsetX = sh.offsetX ∧
      (scanCandidate env sh c).offsetY = sh.offsetY := by
  simp [scanCandidate, h]

/-- The best pair after a run: unchanged, or a candidate of the run that improved on the
start, with every candidate visited before it scoring above both the result and the
threshold. -/
theorem foldl_visitCandidate_offset (l : List (ℕ × ℕ)) (sh : ScanShared S) :
    let sh' := l.foldl (visitCandidate env) sh
    (sh'.similarityMetric = sh.similarityMetric ∧ sh'.offsetX = sh.offsetX ∧
        sh'.offsetY = sh.offsetY) ∨
      (sh'.similarityMetric < sh.similarityMetric ∧
        ∃ l₁ l₂, l = l₁ ++ (sh'.offsetX, sh'.offsetY) :: l₂ ∧
          env.score sh'.offsetX sh'.offsetY = sh'.similarityMetric ∧
          ∀ c ∈ l₁, sh'.similarityMetric < env.score c.1 c.2 ∧ env.threshold < env.score c.1 c.2) := by
  induction l generalizing sh with
  | nil => exact .inl ⟨rfl, rfl, rfl⟩
  | cons c l ih =>
    by_cases hsh : sh.similarityMetric ≤ env.threshold
    · exact .inl (by simp [foldl_visitCandidate_stop env hsh])
    simp only [List.foldl_cons, visitCandidate, if_neg hsh]
    rcases ih (scanCandidate env sh c) with ⟨hm, hx, hy⟩ | ⟨hm, l₁, l₂, hl, hscore, hbefore⟩
    · by_cases hs : env.score c.1 c.2 < sh.similarityMetric
      · obtain ⟨h1, h2, h3⟩ := scanCandidate_of_lt env hs
        refine .inr ⟨by rw [hm, h1]; exact hs, [], l, ?_, ?_, by simp⟩
        · rw [hx, hy, h2, h3]; rfl
        · rw [hx, hy, hm, h2, h3, h1]
      · obtain ⟨h1, h2, h3⟩ := scanCandidate_of_not_lt env hs
        exact .inl ⟨hm.trans h1, hx.trans h2, hy.trans h3⟩
    · refine .inr ⟨hm.trans_le (by rw [scanCandidate_metric]; exact min_le_right _ _),
        c :: l₁, l₂, congrArg (c :: ·) hl, hscore, ?_⟩
      refine List.forall_mem_cons.mpr ⟨?_, hbefore⟩
      by_cases hs : env.score c.1 c.2 < sh.similarityMetric
      · have h1 := (scanCandidate_of_lt env hs).1
        rw [h1] at hm
        refine ⟨hm, lt_of_not_le fun hle => hm.ne ?_⟩
        rw [foldl_visitCandidate_stop env (h1 ▸ hle), h1]
      · have h1 := (scanCandidate_of_not_lt env hs).1
        rw [h1] at hm
        exact ⟨hm.trans_le (not_lt.mp hs), (lt_of_not_le hsh).trans_le (not_lt.mp hs)⟩

/-- The best score after a run is the start's, or the score of a candidate of the run. -/
theorem foldl_visitCandidate_metric_mem (l : List (ℕ × ℕ)) (sh : ScanShared S) :
    (l.foldl (visitCandidate env) sh).similarityMetric = sh.similarityMetric ∨
      ∃ c ∈ l, (l.foldl (visitCandidate env) sh).similarityMetric = env.score c.1 c.2 := by
  rcases foldl_visitCandidate_offset env l sh with ⟨hm, -⟩ | ⟨-, l₁, l₂, hl, hscore, -⟩
  · exact .inl hm
  · exact .inr ⟨_, hl ▸ List.mem_append_right l₁ (List.mem_cons_self _ _), hscore.symm⟩

/-- Without failures, the serial loop ends with `status` set, at or below every score if
it ended above the threshold, and with either the start's best pair or a candidate that
improved on it, every candidate before it in row-major order scoring above both its score
and the threshold: the first at or below the threshold, or else the first minimum. -/
theorem serialScan_best {init : S} {rows : ℕ}
    (hok : ∀ y < rows, env.rowOk y = true ∧ env.syncOk y = true) :
    let sh := serialScan env init rows
    sh.status = true ∧
      (env.threshold < sh.similarityMetric →
        ∀ c ∈ scanCandidates env.columns rows, sh.similarityMetric ≤ env.score c.1 c.2) ∧
      ((sh.similarityMetric = init ∧ sh.offsetX = 0 ∧ sh.offsetY = 0) ∨
        (sh.similarityMetric < init ∧ ∃ l₁ l₂, scanCandidates env.columns rows =
            l₁ ++ (sh.offsetX, sh.offsetY) :: l₂ ∧
          env.score sh.offsetX sh.offsetY = sh.similarityMetric ∧
          ∀ c ∈ l₁, sh.similarityMetric < env.score c.1 c.2 ∧ env.threshold < env.score c.1 c.2)) := by
  rw [serialScan_eq env init rows hok]
  exact ⟨by rw [foldl_visitCandidate_status]; rfl, foldl_visitCandidate_le_score env _ _,
    foldl_visitCandidate_offset env _ _⟩

/-- Without failures, when every score is at least `b`, above the threshold, and a
candidate scores `b`, the serial loop ends with `status` set, best score `b` and that
candidate's confidence pixel. -/
theorem serialScan_attained {init : S} {rows : ℕ}
    (hok : ∀ y < rows, env.rowOk y = true ∧ env.syncOk y = true) {b : S}
    (ht : env.threshold < b) (hinit : b ≤ init)
    (hscores : ∀ x < env.columns, ∀ y < rows, b ≤ env.score x y) {ox oy : ℕ}
    (hox : ox < env.columns) (hoy : oy < rows) (hb : env.score ox oy = b) :
    (serialScan env init rows).status = true ∧ (serialScan env init rows).similarityMetric = b ∧
      (serialScan env init rows).map ox oy = some b := by
  rw [serialScan_eq env init rows hok]
  have hmem : (ox, oy) ∈ scanCandidates env.columns rows := mem_scanCandidates.mpr ⟨hox, hoy⟩
  have hge : b ≤ ((scanCandidates env.columns rows).foldl (visitCandidate env)
      (scanStart init []).shared).similarityMetric := by
    rcases foldl_visitCandidate_metric_mem env (scanCandidates env.columns rows)
      (scanStart init []).shared with h | ⟨c, hc, h⟩
    · exact h ▸ hinit
    · obtain ⟨hx, hy⟩ := mem_scanCandidates.mp hc
      exact h ▸ hscores c.1 hx c.2 hy
  have habove := ht.trans_le hge
  refine ⟨by rw [foldl_visitCandidate_status]; rfl,
    le_antisymm (hb ▸ foldl_visitCandidate_le_score env _ _ habove (ox, oy) hmem) hge, ?_⟩
  rw [← hb]
  exact foldl_visitCandidate_map env _ _ habove (ox, oy) hmem

/-! ### Interleavings of two workers -/

section Races

variable (init : S)

/-- Two workers, one candidate column each: the first compares, the second completes its
update, and the first then writes its worse score over it. -/
theorem runScan_lost_update (hcols : env.columns = 1)
    (hok : ∀ y, env.rowOk y = true ∧ env.syncOk y = true)
    (ht : env.threshold < env.score 0 1) (hlt : env.score 0 1 < env.score 0 0)
    (hinit : env.score 0 0 < init) :
    let st := runScan env (scanStart init [[0], [1]])
      (List.replicate 7 0 ++ List.replicate 14 1 ++ List.replicate 7 0)
    st.shared.status = true ∧ (st.workers 0).phase = .done ∧ (st.workers 1).phase = .done ∧
      st.shared.similarityMetric = env.score 0 0 ∧ st.shared.offsetX = 0 ∧ st.shared.offsetY = 0 := by
  have h1 := lt_trans hlt hinit
  have h0 := lt_trans ht hlt
  have hi := lt_trans h0 hinit
  simp [runScan, scanStep, scanStart, ScanState.set, hcols, hok, ht, hlt, hinit, h1, h0, hi,
    not_le.mpr, Function.update_noteq]

/-- The same two workers, the first run to the end before the second starts: the second's
better score replaces the first's. -/
theorem runScan_in_row_order (hcols : env.columns = 1)
    (hok : ∀ y, env.rowOk y = true ∧ env.syncOk y = true)
    (ht : env.threshold < env.score 0 1) (hlt : env.score 0 1 < env.score 0 0)
    (hinit : env.score 0 0 < init) :
    let st := runScan env (scanStart init [[0], [1]]) (List.replicate 14 0 ++ List.replicate 14 1)
    st.shared.status = true ∧ (st.workers 0).phase = .done ∧ (st.workers 1).phase = .done ∧
      st.shared.similarityMetric = env.score 0 1 ∧ st.shared.offsetX = 0 ∧ st.shared.offsetY = 1 := by
  have h1 := lt_trans hlt hinit
  have h0 := lt_trans ht hlt
  have hi := lt_trans h0 hinit
  simp [runScan, scanStep, scanStart, ScanState.set, hcols, hok, ht, hlt, hinit, h1, h0, hi,
    not_le.mpr, Function.update_noteq]

/-- Two workers over three candidate columns: after the second stores a score at or below
the threshold, the first writes its pending score above it and evaluates two more
candidates. -/
theorem runScan_threshold_overshoot (hcols : env.columns = 3)
    (hok : ∀ y, env.rowOk y = true ∧ env.syncOk y = true)
    (hb : env.score 0 1 ≤ env.threshold) (ha : env.threshold < env.score 0 0)
    (hinit : env.score 0 0 < init) (h1 : ¬env.score 1 0 < env.score 0 0)
    (h2 : ¬env.score 2 0 < env.score 0 0) :
    let st₁ := runScan env (scanStart init [[0], [1]]) (List.replicate 7 0 ++ List.replicate 11 1)
    let st₂ := runScan env st₁ (List.replicate 3 1 ++ List.replicate 15 0)
    st₁.shared.similarityMetric ≤ env.threshold ∧ st₁.shared.map 1 0 = none ∧
      st₁.shared.map 2 0 = none ∧
      st₂.shared.status = true ∧ (st₂.workers 0).phase = .done ∧ (st₂.workers 1).phase = .done ∧
      env.threshold < st₂.shared.similarityMetric ∧ st₂.shared.map 1 0 = some (env.score 1 0) ∧
      st₂.shared.map 2 0 = some (env.score 2 0) := by
  have hbi := (hb.trans_lt ha).trans hinit
  have hti := ha.trans hinit
  simp [runScan, scanStep, scanStart, ScanState.set, hcols, hok, hb, ha, hinit, hbi, hti, h1, h2,
    not_le.mpr, Function.update_noteq, setPixel]

/-- Two workers, one candidate column each, two candidates of equal score: the offset
returned is that of whichever worker runs first. -/
theorem runScan_tie (hcols : env.columns = 1) (hok : ∀ y, env.rowOk y = true ∧ env.syncOk y = true)
    (hv : env.score 0 1 = env.score 0 0) (ht : env.threshold < env.score 0 0)
    (hinit : env.score 0 0 < init) :
    let st₀ := runScan env (scanStart init [[0], [1]]) (List.replicate 14 0 ++ List.replicate 14 1)
    let st₁ := runScan env (scanStart init [[0], [1]]) (List.replicate 14 1 ++ List.replicate 14 0)
    st₀.shared.status = true ∧ (st₀.workers 0).phase = .done ∧ (st₀.workers 1).phase = .done ∧
      st₁.shared.status = true ∧ (st₁.workers 0).phase = .done ∧ (st₁.workers 1).phase = .done ∧
      st₀.shared.similarityMetric = st₁.shared.similarityMetric ∧
      (st₀.shared.offsetX, st₀.shared.offsetY) = (0, 0) ∧
      (st₁.shared.offsetX, st₁.shared.offsetY) = (0, 1) := by
  have hti := ht.trans hinit
  simp [runScan, scanStep, scanStart, ScanState.set, hcols, hok, hv, ht, hinit, hti,
    not_le.mpr, Function.update_noteq]

end Races

end Machine

end MagickCompare
