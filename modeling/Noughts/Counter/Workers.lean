import Noughts.Counter

/-!
# Workers that share a counter

A `Counter` changes in one piece.  This is what stands behind it when several workers share one:
every operation takes a lock, touches the value in separate steps, and gives the lock back.

* `Operation` is what a worker can ask for, `Operation.effect` what it does to a counter that
  nobody else uses, and `total` the value that a history of operations leaves: what was added
  since the last reset.
* `Step` is one step of one worker, and `Steps` any interleaving of them.  The lock is assumed to
  have one holder at most; that nobody touches the value without it is left to be shown.
* A worker keeps what it has completed, with the answers it got (`Worker.completed`), so that a run
  can be compared with the same operations done one after the other.
-/

set_option autoImplicit false

namespace Noughts

namespace Counter

/-! ## Operations -/

/-- What a worker can ask of a counter. -/
inductive Operation where
  | add (n : Int)
  | reset
  | read
  deriving DecidableEq, Repr

namespace Operation

/-- What an operation does to the counter. -/
def effect : Operation → Counter → Counter
  | add n, c => c.add n
  | reset, c => c.reset
  | read, c => c

/-- What an operation adds. -/
def amount : Operation → Int
  | add n => n
  | reset => 0
  | read => 0

end Operation

/-- The value after some operations: the sum of what was added since the last reset, on top of
the initial value if there was none. -/
def total (initial : Int) (operations : List Operation) : Int :=
  (operations.reverse.takeWhile fun op => decide (op ≠ .reset)).foldr
    (fun op sum => op.amount + sum) (if Operation.reset ∈ operations then 0 else initial)

@[simp] theorem total_nil (initial : Int) : total initial [] = initial := by
  simp [total]

theorem total_concat_add (initial n : Int) (operations : List Operation) :
    total initial (operations ++ [.add n]) = total initial operations + n := by
  simp only [total, List.mem_append, List.mem_singleton, List.reverse_append, List.reverse_cons,
    List.reverse_nil, List.nil_append, List.cons_append, reduceCtorEq, or_false]
  rw [List.takeWhile_cons_of_pos (by simp), List.foldr_cons, Operation.amount, Int.add_comm]

theorem total_concat_reset (initial : Int) (operations : List Operation) :
    total initial (operations ++ [.reset]) = 0 := by
  simp [total]

theorem total_concat_read (initial : Int) (operations : List Operation) :
    total initial (operations ++ [.read]) = total initial operations := by
  simp only [total, List.mem_append, List.mem_singleton, List.reverse_append, List.reverse_cons,
    List.reverse_nil, List.nil_append, List.cons_append, reduceCtorEq, or_false]
  rw [List.takeWhile_cons_of_pos (by simp), List.foldr_cons, Operation.amount, Int.zero_add]

/-! ## Steps -/

/-- How far a worker has got with its next operation. -/
inductive Stage where
  /-- It has not begun. -/
  | outside
  /-- It holds the lock and has not touched the value. -/
  | entered
  /-- It has read the value that it is going to add to. -/
  | loaded (value : Int)
  /-- The operation has had its effect, and its answer if it has one; the lock is still held. -/
  | finished (answer : Option Int)
  deriving DecidableEq, Repr

/-- A worker. -/
structure Worker where
  /-- The operations that are not complete, in order. -/
  pending : List Operation
  stage : Stage := .outside
  /-- The operations that are complete, in order, with what a read has answered. -/
  completed : List (Operation × Option Int) := []
  deriving DecidableEq, Repr

/-- A counter's value with the workers that share it. -/
structure Shared where
  value : Int
  /-- The worker that holds the lock. -/
  holder : Option Nat := none
  workers : List Worker
  deriving DecidableEq, Repr

/-- The workers before their first step. -/
def Shared.start (initial : Int) (programs : List (List Operation)) : Shared :=
  { value := initial, workers := programs.map fun operations => { pending := operations } }

/-- Every worker is done. -/
def Shared.Complete (s : Shared) : Prop :=
  ∀ w ∈ s.workers, w.pending = []

/-- One step of the worker in place `i`. -/
inductive Step (i : Nat) : Shared → Shared → Prop
  /-- It takes the lock, if the lock is free. -/
  | acquire {s : Shared} {w : Worker} (hw : s.workers[i]? = some w) (hstage : w.stage = .outside)
      (hpending : w.pending ≠ []) (hfree : s.holder = none) :
      Step i s { s with holder := some i, workers := s.workers.set i { w with stage := .entered } }
  /-- An addition reads the value. -/
  | load {s : Shared} {w : Worker} {n : Int} {rest : List Operation}
      (hw : s.workers[i]? = some w) (hstage : w.stage = .entered)
      (hpending : w.pending = .add n :: rest) :
      Step i s { s with workers := s.workers.set i { w with stage := .loaded s.value } }
  /-- An addition writes the value that it read, and more. -/
  | store {s : Shared} {w : Worker} {n value : Int} {rest : List Operation}
      (hw : s.workers[i]? = some w) (hstage : w.stage = .loaded value)
      (hpending : w.pending = .add n :: rest) :
      Step i s { s with
        value := value + n, workers := s.workers.set i { w with stage := .finished none } }
  /-- A reset writes zero. -/
  | clear {s : Shared} {w : Worker} {rest : List Operation}
      (hw : s.workers[i]? = some w) (hstage : w.stage = .entered)
      (hpending : w.pending = .reset :: rest) :
      Step i s { s with value := 0, workers := s.workers.set i { w with stage := .finished none } }
  /-- A read is answered. -/
  | answer {s : Shared} {w : Worker} {rest : List Operation}
      (hw : s.workers[i]? = some w) (hstage : w.stage = .entered)
      (hpending : w.pending = .read :: rest) :
      Step i s { s with
        workers := s.workers.set i { w with stage := .finished (some s.value) } }
  /-- It gives the lock back. -/
  | release {s : Shared} {w : Worker} {op : Operation} {rest : List Operation}
      {answer : Option Int} (hw : s.workers[i]? = some w) (hstage : w.stage = .finished answer)
      (hpending : w.pending = op :: rest) :
      Step i s { s with
        holder := none
        workers := s.workers.set i
          { pending := rest, stage := .outside, completed := w.completed ++ [(op, answer)] } }

/-- Any number of steps, of whichever workers. -/
inductive Steps : Shared → Shared → Prop
  | refl (s : Shared) : Steps s s
  | tail {s t u : Shared} {i : Nat} (h : Steps s t) (hstep : Step i t u) : Steps s u

end Counter

end Noughts
