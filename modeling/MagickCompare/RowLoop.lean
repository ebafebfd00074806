import Mathlib.Data.List.Perm.Basic
import Mathlib.Data.List.Range
/-! The row loops of the distortion engine: `#pragma omp parallel for` over rows, a
shared `status` flag, and a per-row partial result folded into the shared vector inside
`omp critical`.

A schedule gives each worker its rows and interleaves the workers' row steps. A row
step is the row's `status` test, its reads and its critical fold: besides `status`, the
fold is the only shared write a row makes, so the order of the row steps is the order
of the folds. -/

namespace MagickCompare

/-- How one run of a row loop was scheduled: the rows each worker was given, in the
order it takes them, and the workers whose turn it is, in order. -/
structure RowSchedule where
  queues : List (List ℕ)
  turns : List ℕ

/-- The rows in the order their steps ran; the turn of a worker with no row left is
idle. -/
def rowTrace : List (List ℕ) → List ℕ → List ℕ
  | _, [] => []
  | qs, w :: ws =>
    match qs.getD w [] with
    | [] => rowTrace qs ws
    | y :: rest => y :: rowTrace (qs.set w rest) ws

def rowsLeft : List (List ℕ) → List ℕ → List (List ℕ)
  | qs, [] => qs
  | qs, w :: ws =>
    match qs.getD w [] with
    | [] => rowsLeft qs ws
    | _ :: rest => rowsLeft (qs.set w rest) ws

/-- A run of the loop over `rows` rows: the queues split the rows among the workers,
and the turns run until every queue is empty. -/
structure RowSchedule.Complete (sched : RowSchedule) (rows : ℕ) : Prop where
  split : sched.queues.flatten.Perm (List.range rows)
  drained : ∀ q ∈ rowsLeft sched.queues sched.turns, q = []

def RowSchedule.trace (sched : RowSchedule) : List ℕ := rowTrace sched.queues sched.turns

def RowSchedule.single (rows : ℕ) : RowSchedule :=
  ⟨[List.range rows], List.replicate rows 0⟩

theorem flatten_perm_of_getD {qs : List (List ℕ)} {w y : ℕ} {rest : List ℕ}
    (h : qs.getD w [] = y :: rest) : qs.flatten.Perm (y :: (qs.set w rest).flatten) := by
  induction qs generalizing w with
  | nil => simp at h
  | cons q qs ih =>
    cases w with
    | zero => simp_all
    | succ w =>
      simp only [List.getD_cons_succ] at h
      simp only [List.set_cons_succ, List.flatten_cons]
      exact ((ih h).append_left q).trans List.perm_middle

theorem rowTrace_perm (qs : List (List ℕ)) (ws : List ℕ) :
    (rowTrace qs ws ++ (rowsLeft qs ws).flatten).Perm qs.flatten := by
  induction ws generalizing qs with
  | nil => simp [rowTrace, rowsLeft]
  | cons w ws ih =>
    simp only [rowTrace, rowsLeft]
    split
    · exact ih qs
    · next y rest h => exact ((ih _).cons y).trans (flatten_perm_of_getD h).symm

theorem RowSchedule.Complete.trace_perm {sched : RowSchedule} {rows : ℕ}
    (h : sched.Complete rows) : sched.trace.Perm (List.range rows) := by
  have hleft : (rowsLeft sched.queues sched.turns).flatten = [] :=
    List.flatten_eq_nil_iff.mpr h.drained
  have := rowTrace_perm sched.queues sched.turns
  rw [hleft, List.append_nil] at this
  exact this.trans h.split

theorem rowTrace_single (rows : ℕ) : (RowSchedule.single rows).trace = List.range rows := by
  suffices ∀ l : List ℕ, rowTrace [l] (List.replicate l.length 0) = l by
    simpa [RowSchedule.trace, RowSchedule.single] using this (List.range rows)
  intro l
  induction l with
  | nil => rfl
  | cons y l ih => simpa [rowTrace] using ih

theorem RowSchedule.single_complete (rows : ℕ) : (RowSchedule.single rows).Complete rows := by
  refine ⟨by simp [RowSchedule.single], ?_⟩
  suffices ∀ l : List ℕ, rowsLeft [l] (List.replicate l.length 0) = [[]] by
    intro q hq
    have h := this (List.range rows)
    rw [List.length_range] at h
    simpa only [RowSchedule.single, h, List.mem_singleton] using hq
  intro l
  induction l with
  | nil => rfl
  | cons y l ih => simpa [rowsLeft] using ih

/-! ### The loop body and its runs -/

theorem foldl_rel {α β γ : Type*} (R : α → β → Prop) {f : α → γ → α} {g : β → γ → β}
    {l : List γ} (hstep : ∀ a b, ∀ x ∈ l, R a b → R (f a x) (g b x)) {a : α} {b : β}
    (h : R a b) : R (l.foldl f a) (l.foldl g b) := by
  induction l generalizing a b with
  | nil => exact h
  | cons x l ih =>
    exact ih (fun a b y hy => hstep a b y (List.mem_cons_of_mem _ hy))
      (hstep a b x (List.mem_cons_self _ _) h)

section Loop

variable {α : Type*} (rowOk : ℕ → Bool) (fold : α → ℕ → α)

/-- One row step: `if (status == MagickFalse) continue;`, then the row reads (a failed
read clears `status`), then the critical fold of the row's partial result. -/
def rowStep (s : Bool × α) (y : ℕ) : Bool × α :=
  if s.1 then (if rowOk y then (true, fold s.2 y) else (false, s.2)) else s

def runRows (order : List ℕ) (init : α) : Bool × α := order.foldl (rowStep rowOk fold) (true, init)

theorem foldl_rowStep_false (order : List ℕ) (acc : α) :
    order.foldl (rowStep rowOk fold) (false, acc) = (false, acc) := by
  induction order with
  | nil => rfl
  | cons y order ih => simpa [rowStep] using ih

/-- A run ends with `status` set only if every row read succeeded, and then it has
folded every row. -/
theorem foldl_rowStep_true {order : List ℕ} {acc : α} {r : α}
    (h : order.foldl (rowStep rowOk fold) (true, acc) = (true, r)) :
    (∀ y ∈ order, rowOk y = true) ∧ r = order.foldl fold acc := by
  induction order generalizing acc with
  | nil => simpa using h.symm
  | cons y order ih =>
    by_cases hy : rowOk y = true
    · simp only [List.foldl_cons, rowStep, hy, if_true] at h
      obtain ⟨hall, rfl⟩ := ih h
      exact ⟨by simpa [hy] using hall, rfl⟩
    · simp only [List.foldl_cons, rowStep, hy, if_true, if_false, Bool.false_eq_true,
        foldl_rowStep_false] at h
      simp at h

theorem runRows_true {order : List ℕ} {init : α} (h : (runRows rowOk fold order init).1 = true) :
    (∀ y ∈ order, rowOk y = true) ∧ (runRows rowOk fold order init).2 = order.foldl fold init :=
  foldl_rowStep_true rowOk fold (Prod.ext h rfl)

theorem runRows_induction (P : α → Prop) {order : List ℕ} {init : α} (h0 : P init)
    (hstep : ∀ acc, ∀ y ∈ order, P acc → P (fold acc y)) : P (runRows rowOk fold order init).2 :=
  List.foldlRecOn (motive := fun s : Bool × α => P s.2) order _ _ h0 fun s hs y hy => by
    simp only [rowStep]
    split_ifs
    exacts [hstep _ y hy hs, hs, hs]

/-- A run folds a prefix of its order: the rows before the first failed read. -/
theorem runRows_prefix (order : List ℕ) (init : α) :
    ∃ k, (runRows rowOk fold order init).2 = (order.take k).foldl fold init := by
  unfold runRows
  induction order generalizing init with
  | nil => exact ⟨0, rfl⟩
  | cons y order ih =>
    by_cases hy : rowOk y = true
    · obtain ⟨k, hk⟩ := ih (fold init y)
      exact ⟨k + 1, by simpa [rowStep, hy] using hk⟩
    · exact ⟨0, by simp [rowStep, hy, foldl_rowStep_false]⟩

/-- Two loops over the same rows with the same reads: a relation between their
accumulators that every successful row keeps holds of their results, and their
statuses agree. -/
theorem runRows_rel {β : Type*} {fold' : β → ℕ → β} (R : α → β → Prop) {order : List ℕ}
    {init : α} {init' : β} (h0 : R init init')
    (hstep : ∀ a b, ∀ y ∈ order, rowOk y = true → R a b → R (fold a y) (fold' b y)) :
    (runRows rowOk fold order init).1 = (runRows rowOk fold' order init').1 ∧
      R (runRows rowOk fold order init).2 (runRows rowOk fold' order init').2 := by
  unfold runRows
  induction order generalizing init init' with
  | nil => exact ⟨rfl, h0⟩
  | cons y order ih =>
    simp only [List.foldl_cons, rowStep, if_true]
    by_cases hy : rowOk y = true
    · simp only [hy, if_true]
      exact ih (hstep _ _ y (List.mem_cons_self _ _) hy h0)
        fun a b z hz => hstep a b z (List.mem_cons_of_mem _ hz)
    · simp only [hy, Bool.false_eq_true, if_false]
      rw [foldl_rowStep_false, foldl_rowStep_false]
      exact ⟨rfl, h0⟩

theorem runRows_of_ok {order : List ℕ} (hok : ∀ y ∈ order, rowOk y = true) (init : α) :
    runRows rowOk fold order init = (true, order.foldl fold init) := by
  unfold runRows
  induction order generalizing init with
  | nil => rfl
  | cons y order ih =>
    simp only [List.foldl_cons, rowStep, if_true, hok y (List.mem_cons_self _ _)]
    exact ih (fun z hz => hok z (List.mem_cons_of_mem _ hz)) _

theorem runRows_fst_iff (order : List ℕ) (init : α) :
    (runRows rowOk fold order init).1 = true ↔ ∀ y ∈ order, rowOk y = true :=
  ⟨fun h => (runRows_true rowOk fold h).1, fun h => by rw [runRows_of_ok rowOk fold h]⟩

/-- Over a complete schedule of `rows` rows, whichever order the rows run in. -/
theorem runRows_trace_fst_iff {sched : RowSchedule} {rows : ℕ} (hc : sched.Complete rows)
    (init : α) :
    (runRows rowOk fold sched.trace init).1 = true ↔ ∀ y < rows, rowOk y = true := by
  rw [runRows_fst_iff]
  exact ⟨fun h y hy => h y (hc.trace_perm.mem_iff.mpr (List.mem_range.mpr hy)),
    fun h y hy => h y (List.mem_range.mp (hc.trace_perm.mem_iff.mp hy))⟩

end Loop

/-! ### A loop that asks a progress monitor after each row -/

section Monitored

variable {α : Type*} (rowOk progressOk : ℕ → Bool) (fold : α → ℕ → α)

/-- A row step followed by `SetImageProgress`: after the row is read and folded, a monitor
answering `MagickFalse` clears `status`. -/
def monitoredRowStep (s : Bool × α) (y : ℕ) : Bool × α :=
  if s.1 then (if rowOk y then (progressOk y, fold s.2 y) else (false, s.2)) else s

def runMonitoredRows (order : List ℕ) (init : α) : Bool × α :=
  order.foldl (monitoredRowStep rowOk progressOk fold) (true, init)

theorem foldl_monitoredRowStep_false (order : List ℕ) (acc : α) :
    order.foldl (monitoredRowStep rowOk progressOk fold) (false, acc) = (false, acc) := by
  induction order with
  | nil => rfl
  | cons y order ih => simpa [monitoredRowStep] using ih

theorem runMonitoredRows_of_ok {order : List ℕ}
    (hok : ∀ y ∈ order, rowOk y = true ∧ progressOk y = true) (init : α) :
    runMonitoredRows rowOk progressOk fold order init = (true, order.foldl fold init) := by
  unfold runMonitoredRows
  induction order generalizing init with
  | nil => rfl
  | cons y order ih =>
    obtain ⟨hr, hp⟩ := hok y (List.mem_cons_self _ _)
    simp only [List.foldl_cons, monitoredRowStep, if_true, hr, hp]
    exact ih (fun z hz => hok z (List.mem_cons_of_mem _ hz)) _

theorem runMonitoredRows_fst_iff (order : List ℕ) (init : α) :
    (runMonitoredRows rowOk progressOk fold order init).1 = true ↔
      ∀ y ∈ order, rowOk y = true ∧ progressOk y = true := by
  refine ⟨fun h => ?_, fun h => by rw [runMonitoredRows_of_ok rowOk progressOk fold h]⟩
  unfold runMonitoredRows at h
  induction order generalizing init with
  | nil => simp
  | cons y order ih =>
    -- a failed read or a cancelling monitor at `y` leaves `status` cleared
    by_cases hr : rowOk y = true <;> by_cases hp : progressOk y = true <;>
      simp [monitoredRowStep, hr, hp, foldl_monitoredRowStep_false] at h
    exact List.forall_mem_cons.mpr ⟨⟨hr, hp⟩, ih _ h⟩

/-- A run that ends with `status` set is the run without failures and without a monitor. -/
theorem runMonitoredRows_of_status {order : List ℕ} {init : α}
    (h : (runMonitoredRows rowOk progressOk fold order init).1 = true) :
    runMonitoredRows rowOk progressOk fold order init =
      runMonitoredRows (fun _ => true) (fun _ => true) fold order init := by
  rw [runMonitoredRows_of_ok rowOk progressOk fold
      ((runMonitoredRows_fst_iff rowOk progressOk fold order init).mp h),
    runMonitoredRows_of_ok _ _ fold fun _ _ => ⟨rfl, rfl⟩]

/-- A run folds a prefix of its order: the rows up to the first failed read, or up to and
including the row after which the monitor answered `MagickFalse`. -/
theorem runMonitoredRows_prefix (order : List ℕ) (init : α) :
    ∃ k, (runMonitoredRows rowOk progressOk fold order init).2 = (order.take k).foldl fold init := by
  unfold runMonitoredRows
  induction order generalizing init with
  | nil => exact ⟨0, rfl⟩
  | cons y order ih =>
    by_cases hr : rowOk y = true
    · by_cases hp : progressOk y = true
      · obtain ⟨k, hk⟩ := ih (fold init y)
        exact ⟨k + 1, by simpa [monitoredRowStep, hr, hp] using hk⟩
      · exact ⟨1, by simp [monitoredRowStep, hr, hp, foldl_monitoredRowStep_false]⟩
    · exact ⟨0, by simp [monitoredRowStep, hr, foldl_monitoredRowStep_false]⟩

end Monitored

end MagickCompare
