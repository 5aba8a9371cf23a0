import Mathlib.Algebra.Ring.Nat
import Mathlib.Data.List.Perm.Basic
import Rtaco.Library.Machine

/-!
# Tasks in flight

A task that is handed to a pool takes two turns, one to be posted and one to run, and the pool
takes the turns in any order. No task is lost and none runs twice; when nothing more is handed
over, the turns end with all of them done.
-/

namespace TaskPool

universe u

structure Pool (Task : Type u) where
  waiting : List (Task × Bool) := []
  done : List Task := []
  deriving DecidableEq

inductive Turn where
  | post (index : Nat)
  | run (index : Nat)
  deriving DecidableEq

variable {Task : Type u} {pool next : Pool Task}

namespace Pool

/-- Hand a task over. -/
def spawn (pool : Pool Task) (task : Task) : Pool Task :=
  { pool with waiting := pool.waiting ++ [(task, false)] }

/-- Do a task at once. -/
def perform (pool : Pool Task) (task : Task) : Pool Task :=
  { pool with done := pool.done ++ [task] }

def step (pool : Pool Task) : Turn → Option (Pool Task)
  | .post index =>
      match pool.waiting[index]? with
      | some (task, false) => some { pool with waiting := pool.waiting.set index (task, true) }
      | _ => none
  | .run index =>
      match pool.waiting[index]? with
      | some (task, true) =>
          some { waiting := pool.waiting.eraseIdx index, done := pool.done ++ [task] }
      | _ => none

/-- The tasks done and those in flight. -/
def tasks (pool : Pool Task) : List Task := pool.done ++ pool.waiting.map Prod.fst

/-- The turns that the tasks in flight have left. -/
def turns (pool : Pool Task) : Nat :=
  (pool.waiting.map fun entry => if entry.2 then 1 else 2).sum

theorem tasks_spawn (pool : Pool Task) (task : Task) :
    (pool.spawn task).tasks = pool.tasks ++ [task] := by
  simp [tasks, spawn]

theorem tasks_perform (pool : Pool Task) (task : Task) :
    (pool.perform task).tasks.Perm (pool.tasks ++ [task]) := by
  unfold tasks perform
  rw [List.append_assoc, List.append_assoc]
  exact List.Perm.append_left pool.done List.perm_append_comm

theorem step_post {index : Nat} (taken : pool.step (.post index) = some next) :
    ∃ task, pool.waiting[index]? = some (task, false) ∧
      next = { pool with waiting := pool.waiting.set index (task, true) } := by
  simp only [step] at taken
  split at taken
  next task unposted => exact ⟨task, unposted, (Option.some.inj taken).symm⟩
  next => cases taken

theorem step_run {index : Nat} (taken : pool.step (.run index) = some next) :
    ∃ task, pool.waiting[index]? = some (task, true) ∧
      next = { waiting := pool.waiting.eraseIdx index, done := pool.done ++ [task] } := by
  simp only [step] at taken
  split at taken
  next task posted => exact ⟨task, posted, (Option.some.inj taken).symm⟩
  next => cases taken

theorem map_fst_set {waiting : List (Task × Bool)} {index : Nat} {task : Task} {posted : Bool}
    (present : waiting[index]? = some (task, posted)) (flag : Bool) :
    (waiting.set index (task, flag)).map Prod.fst = waiting.map Prod.fst := by
  have same : (waiting.map Prod.fst)[index]? = some task := by
    rw [List.getElem?_map, present]
    rfl
  obtain ⟨inside, rfl⟩ := List.getElem?_eq_some_iff.mp same
  rw [List.map_set]
  exact List.set_getElem_self inside

theorem perm_eraseIdx {Entry : Type u} {waiting : List Entry} {index : Nat} {entry : Entry}
    (present : waiting[index]? = some entry) :
    waiting.Perm (entry :: waiting.eraseIdx index) := by
  obtain ⟨inside, rfl⟩ := List.getElem?_eq_some_iff.mp present
  exact (List.getElem_cons_eraseIdx_perm inside).symm

theorem tasks_step {turn : Turn} (taken : pool.step turn = some next) :
    next.tasks.Perm pool.tasks := by
  cases turn with
  | post index =>
      obtain ⟨task, unposted, rfl⟩ := step_post taken
      unfold tasks
      rw [map_fst_set unposted]
  | run index =>
      obtain ⟨task, posted, rfl⟩ := step_run taken
      have perm := (perm_eraseIdx posted).map Prod.fst
      unfold tasks
      rw [List.append_assoc]
      exact List.Perm.append_left pool.done perm.symm

theorem done_step {turn : Turn} (taken : pool.step turn = some next) :
    ∃ finished, next.done = pool.done ++ finished ∧
      ∀ task ∈ finished, task ∈ pool.waiting.map Prod.fst := by
  cases turn with
  | post index =>
      obtain ⟨task, -, rfl⟩ := step_post taken
      exact ⟨[], (List.append_nil _).symm, nofun⟩
  | run index =>
      obtain ⟨task, posted, rfl⟩ := step_run taken
      refine ⟨[task], rfl, fun other member => ?_⟩
      rw [List.mem_singleton.mp member]
      exact List.mem_map.mpr ⟨_, List.mem_of_getElem? posted, rfl⟩

theorem waiting_step {turn : Turn} (taken : pool.step turn = some next) :
    ∀ task ∈ next.waiting.map Prod.fst, task ∈ pool.waiting.map Prod.fst := by
  intro task member
  cases turn with
  | post index =>
      obtain ⟨other, unposted, rfl⟩ := step_post taken
      rw [map_fst_set unposted] at member
      exact member
  | run index =>
      obtain ⟨other, -, rfl⟩ := step_run taken
      exact ((List.eraseIdx_sublist _ _).map Prod.fst).subset member

theorem turns_step {turn : Turn} (taken : pool.step turn = some next) :
    next.turns + 1 = pool.turns := by
  cases turn with
  | post index =>
      obtain ⟨task, unposted, rfl⟩ := step_post taken
      obtain ⟨inside, -⟩ := List.getElem?_eq_some_iff.mp unposted
      have before := ((perm_eraseIdx unposted).map fun entry => if entry.2 then 1 else 2).sum_nat
      have later : (pool.waiting.set index (task, true))[index]? = some (task, true) :=
        List.getElem?_set_self inside
      have after := ((perm_eraseIdx later).map fun entry => if entry.2 then 1 else 2).sum_nat
      rw [List.eraseIdx_set_eq] at after
      simp only [turns, List.map_cons, List.sum_cons] at before after ⊢
      rw [before, after]
      simp
      omega
  | run index =>
      obtain ⟨task, posted, rfl⟩ := step_run taken
      have before := ((perm_eraseIdx posted).map fun entry => if entry.2 then 1 else 2).sum_nat
      simp only [turns, List.map_cons, List.sum_cons] at before ⊢
      rw [before]
      simp
      omega

theorem exists_turn (busy : pool.waiting ≠ []) : ∃ turn next, pool.step turn = some next := by
  obtain ⟨⟨task, posted⟩, waiting, present⟩ := List.exists_cons_of_ne_nil busy
  cases posted with
  | false => exact ⟨.post 0, _, by rw [step, present]; rfl⟩
  | true => exact ⟨.run 0, _, by rw [step, present]; rfl⟩

theorem waiting_of_turns (settled : pool.turns = 0) : pool.waiting = [] := by
  cases waiting : pool.waiting with
  | nil => rfl
  | cons entry rest =>
      rw [turns, waiting, List.map_cons, List.sum_cons] at settled
      split_ifs at settled <;> omega

/-- As many turns as are left lead to a pool that has done all its tasks. -/
theorem exists_run_settled (pool : Pool Task) :
    ∃ labels settled, labels.length = pool.turns ∧ Machine.run step pool labels = some settled ∧
      settled.waiting = [] ∧ settled.done.Perm pool.tasks := by
  induction left : pool.turns generalizing pool with
  | zero =>
      have empty := waiting_of_turns left
      refine ⟨[], pool, rfl, rfl, empty, ?_⟩
      rw [tasks, empty, List.map_nil, List.append_nil]
  | succ left' inductionHypothesis =>
      have busy : pool.waiting ≠ [] := by
        intro empty
        rw [turns, empty] at left
        cases left
      obtain ⟨turn, next, taken⟩ := exists_turn busy
      have fewer := turns_step taken
      obtain ⟨labels, settled, count, reached, empty, done⟩ :=
        inductionHypothesis next (by omega)
      refine ⟨turn :: labels, settled, ?_, ?_, empty, done.trans (tasks_step taken)⟩
      · rw [List.length_cons, count]
      · exact Machine.run_cons_eq_some.mpr ⟨next, taken, reached⟩

end Pool

end TaskPool
