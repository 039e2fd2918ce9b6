import Noughts.Counter.Workers
import Mathlib.Algebra.BigOperators.Group.List.Basic
import Mathlib.Algebra.Ring.Int.Defs
import Mathlib.Data.List.Induction

/-!
# A shared counter loses no update

An operation on a shared counter takes several steps, and the steps of all workers come in any
order.  Still the workers might as well have taken turns: there is one order of their operations,
each worker's in its own order, in which every read gets what it got and which leaves the value
that is left (`operations_take_turns`).

An operation takes its place in that order at the step that has its effect: a `store`, a `clear`
or an `answer`.  So the order is built up along the run, and two facts are carried with it
(`Orders`): the value is the total of the order so far, and only the holder of the lock is inside
an operation.  The second is why a value that was read is still there when it is added to
(`Orders.loaded_eq`).
-/

set_option autoImplicit false

namespace Noughts.Counter

/-! ## Totals -/

/-- Without a reset, a total is the initial value and all that was added. -/
theorem total_eq_sum {initial : Int} {operations : List Operation}
    (h : Operation.reset ∉ operations) :
    total initial operations = initial + (operations.map Operation.amount).sum := by
  induction operations using List.reverseRecOn with
  | nil => simp
  | append_singleton rest op ih =>
    rw [List.mem_append, List.mem_singleton, not_or] at h
    rw [List.map_append, List.sum_append, List.map_singleton, List.sum_singleton,
      ← Int.add_assoc, ← ih h.1]
    cases op with
    | add n => exact total_concat_add initial n rest
    | reset => exact absurd rfl h.2
    | read => rw [total_concat_read, Operation.amount, Int.add_zero]

/-- What one more operation does to a total is its effect on the counter. -/
theorem total_concat (initial : Int) (operations : List Operation) (op : Operation) :
    total initial (operations ++ [op]) = (op.effect ⟨total initial operations⟩).value := by
  cases op with
  | add n => exact total_concat_add initial n operations
  | reset => exact total_concat_reset initial operations
  | read => exact total_concat_read initial operations

/-! ## Orders of operations -/

/-- An operation that had its effect. -/
structure Event where
  /-- The place of the worker whose operation it was. -/
  worker : Nat
  operation : Operation
  /-- What a read was answered. -/
  answer : Option Int
  deriving DecidableEq, Repr

/-- What a worker keeps of an operation. -/
def Event.record (e : Event) : Operation × Option Int := (e.operation, e.answer)

/-- What an operation is answered when the counter stands at `value`. -/
def Operation.answerAt (value : Int) : Operation → Option Int
  | add _ => none
  | reset => none
  | read => some value

/-- One worker's part of an order. -/
def part (i : Nat) (order : List Event) : List Event :=
  order.filter fun e => e.worker == i

/-- Every operation got the answer that the operations before it call for. -/
def Answered (initial : Int) (order : List Event) : Prop :=
  ∀ before e after, order = before ++ e :: after →
    e.answer = e.operation.answerAt (total initial (before.map Event.operation))

theorem part_append (i : Nat) (order events : List Event) :
    part i (order ++ events) = part i order ++ part i events :=
  List.filter_append order events

theorem part_eq_self {i : Nat} {events : List Event} (h : ∀ e ∈ events, e.worker = i) :
    part i events = events :=
  List.filter_eq_self.mpr fun e he => beq_iff_eq.mpr (h e he)

theorem part_eq_nil {i j : Nat} {events : List Event} (h : ∀ e ∈ events, e.worker = i)
    (hj : j ≠ i) : part j events = [] :=
  List.filter_eq_nil_iff.mpr fun e he heq => hj ((beq_iff_eq.mp heq).symm.trans (h e he))

theorem answered_nil (initial : Int) : Answered initial [] := by
  intro before e after h
  simp at h

theorem Answered.concat {initial : Int} {order : List Event} {e : Event}
    (h : Answered initial order)
    (he : e.answer = e.operation.answerAt (total initial (order.map Event.operation))) :
    Answered initial (order ++ [e]) := by
  intro before e' after horder
  rcases List.eq_nil_or_concat after with rfl | ⟨rest, last, rfl⟩
  · obtain ⟨rfl, rfl⟩ := List.append_singleton_inj.mp horder
    exact he
  · rw [List.concat_eq_append, ← List.cons_append, ← List.append_assoc] at horder
    exact h before e' rest (List.append_singleton_inj.mp horder).1

/-- The parts of an order make up the order. -/
theorem perm_parts (n : Nat) (order : List Event) :
    ((List.range n).flatMap fun i => part i order).Perm
      (order.filter fun e => decide (e.worker < n)) := by
  induction n with
  | zero => simp
  | succ n ih =>
    have hsplit (p q : Event → Bool) (h : ∀ e, p e = (q e && decide (e.worker < n + 1))) :
        order.filter p = (order.filter fun e => decide (e.worker < n + 1)).filter q := by
      rw [List.filter_filter]
      exact List.filter_congr fun e _ => h e
    have hlast := hsplit (fun e => e.worker == n) (fun e => !decide (e.worker < n)) fun e => by
      rw [Bool.eq_iff_iff]
      simp
      omega
    have hrest := hsplit (fun e => decide (e.worker < n)) (fun e => decide (e.worker < n))
      fun e => by
        rw [Bool.eq_iff_iff]
        simp
        omega
    rw [List.range_succ, List.flatMap_append, List.flatMap_singleton, part, hlast]
    refine (ih.append_right _).trans ?_
    rw [hrest]
    exact List.filter_append_perm _ _

/-! ## A worker and the order -/

namespace Worker

/-- The operations of a worker that had their effect: those it has completed, and the one that it
is about to complete. -/
def effective (w : Worker) : List (Operation × Option Int) :=
  match w.stage, w.pending with
  | .finished answer, op :: _ => w.completed ++ [(op, answer)]
  | _, _ => w.completed

theorem effective_of_done {w : Worker} (h : w.pending = []) : w.effective = w.completed := by
  rw [effective, h]
  cases w.stage <;> rfl

theorem effective_of_unfinished {w : Worker} (h : ∀ answer, w.stage ≠ .finished answer) :
    w.effective = w.completed := by
  rw [effective]
  cases hstage : w.stage with
  | finished answer => exact absurd hstage (h answer)
  | outside => rfl
  | entered => rfl
  | loaded value => rfl

theorem effective_of_finished {w : Worker} {answer : Option Int} {op : Operation}
    {rest : List Operation} (h : w.stage = .finished answer) (hpending : w.pending = op :: rest) :
    w.effective = w.completed ++ [(op, answer)] := by
  rw [effective, h, hpending]

end Worker

/-- How the worker in place `i` stands to the state that it is part of: what it has done is its
part of the order, and with what it has yet to do that is its program; unless it is outside it
holds the lock, and a value that it has read is the one that is there. -/
structure Fits (i : Nat) (program : List Operation) (s : Shared) (order : List Event)
    (w : Worker) : Prop where
  history : (part i order).map Event.record = w.effective
  program : w.completed.map Prod.fst ++ w.pending = program
  holds : w.stage ≠ .outside → s.holder = some i
  loaded : ∀ value, w.stage = .loaded value → value = s.value

/-- **The order of a run**: the operations that had their effect, in the order in which they had
it. -/
structure Orders (initial : Int) (programs : List (List Operation)) (s : Shared)
    (order : List Event) : Prop where
  value : s.value = total initial (order.map Event.operation)
  answered : Answered initial order
  length : s.workers.length = programs.length
  worker_lt : ∀ e ∈ order, e.worker < programs.length
  fits : ∀ i w, s.workers[i]? = some w → ∃ program, programs[i]? = some program
    ∧ Fits i program s order w

namespace Orders

variable {initial : Int} {programs : List (List Operation)} {s t : Shared} {order : List Event}
  {i : Nat} {w : Worker}

theorem start (initial : Int) (programs : List (List Operation)) :
    Orders initial programs (.start initial programs) [] where
  value := (total_nil initial).symm
  answered := answered_nil initial
  length := List.length_map _
  worker_lt := by simp
  fits := by
    intro i w hw
    rw [Shared.start, List.getElem?_map, Option.map_eq_some_iff] at hw
    obtain ⟨program, hprogram, rfl⟩ := hw
    exact ⟨program, hprogram, rfl, rfl, fun h => absurd rfl h, fun _ h => by cases h⟩

/-- **Mutual exclusion**: while nobody but `i` holds the lock, everybody else is outside. -/
theorem outside (h : Orders initial programs s order)
    (hholder : s.holder = none ∨ s.holder = some i) {j : Nat} {u : Worker}
    (hu : s.workers[j]? = some u) (hj : j ≠ i) : u.stage = .outside := by
  obtain ⟨_, -, hfits⟩ := h.fits j u hu
  by_contra hstage
  have hself := hfits.holds hstage
  rcases hholder with hnone | hother
  · exact absurd (hnone.symm.trans hself) (by simp)
  · exact hj (Option.some.inj (hself.symm.trans hother))

theorem holder_eq (h : Orders initial programs s order) (hw : s.workers[i]? = some w)
    (hstage : w.stage ≠ .outside) : s.holder = some i := by
  obtain ⟨_, -, hfits⟩ := h.fits i w hw
  exact hfits.holds hstage

/-- **No value goes stale**: what a worker has read is still there when it adds to it. -/
theorem loaded_eq (h : Orders initial programs s order) (hw : s.workers[i]? = some w)
    {value : Int} (hstage : w.stage = .loaded value) :
    value = total initial (order.map Event.operation) := by
  obtain ⟨_, -, hfits⟩ := h.fits i w hw
  rw [hfits.loaded value hstage, h.value]

/-- **A step of one worker** while nobody else holds the lock.  Whatever it does to the lock and to
the value, and whether or not an operation of its own has its effect, the others stand as they
stood. -/
theorem update (h : Orders initial programs s order) (hw : s.workers[i]? = some w)
    (hholder : s.holder = none ∨ s.holder = some i) {events : List Event}
    (hevents : ∀ e ∈ events, e.worker = i) {value : Int} {holder : Option Nat} {w' : Worker}
    (hvalue : value = total initial ((order ++ events).map Event.operation))
    (hanswered : Answered initial (order ++ events))
    (hfits : ∀ program, Fits i program s order w →
      Fits i program ⟨value, holder, s.workers.set i w'⟩ (order ++ events) w') :
    Orders initial programs ⟨value, holder, s.workers.set i w'⟩ (order ++ events) where
  value := hvalue
  answered := hanswered
  length := by rw [List.length_set, h.length]
  worker_lt := by
    intro e he
    rcases List.mem_append.mp he with he | he
    · exact h.worker_lt e he
    · rw [hevents e he, ← h.length]
      exact (List.getElem?_eq_some_iff.mp hw).1
  fits := by
    intro j u hu
    by_cases hj : j = i
    · subst hj
      rw [List.getElem?_set_self (List.getElem?_eq_some_iff.mp hw).1] at hu
      cases hu
      obtain ⟨program, hprogram, hold⟩ := h.fits j w hw
      exact ⟨program, hprogram, hfits program hold⟩
    · rw [List.getElem?_set_ne (Ne.symm hj)] at hu
      obtain ⟨program, hprogram, hold⟩ := h.fits j u hu
      have hout := h.outside hholder hu hj
      refine ⟨program, hprogram, ?_, hold.program, fun hin => absurd hout hin, fun v hv => ?_⟩
      · rw [part_append, part_eq_nil hevents hj, List.append_nil, hold.history]
      · exact absurd (hout.symm.trans hv) (by simp)

/-- A step without an effect: the worker moves on, and the value stays. -/
theorem silent (h : Orders initial programs s order) (hw : s.workers[i]? = some w)
    (hholder : s.holder = none ∨ s.holder = some i) {holder : Option Nat} {w' : Worker}
    (heffective : w'.effective = w.effective)
    (hprogram : w'.completed.map Prod.fst ++ w'.pending = w.completed.map Prod.fst ++ w.pending)
    (hholds : w'.stage ≠ .outside → holder = some i)
    (hloaded : ∀ value, w'.stage = .loaded value → value = s.value) :
    Orders initial programs ⟨s.value, holder, s.workers.set i w'⟩ order := by
  have hupdate : Orders initial programs ⟨s.value, holder, s.workers.set i w'⟩ (order ++ []) := by
    refine h.update hw hholder (by simp) (by rw [List.append_nil, h.value])
      (by rw [List.append_nil]; exact h.answered) fun program hold => ?_
    exact ⟨by rw [List.append_nil, hold.history, heffective], by rw [hprogram, hold.program],
      hholds, hloaded⟩
  rwa [List.append_nil] at hupdate

/-- The step at which an operation has its effect: it changes the value as it would change it on
its own, and it is answered as it would be answered on its own. -/
theorem effect (h : Orders initial programs s order) (hw : s.workers[i]? = some w)
    (hstage : w.stage ≠ .outside) (hunfinished : ∀ answer, w.stage ≠ .finished answer)
    {op : Operation} {rest : List Operation} (hpending : w.pending = op :: rest) {value : Int}
    (hvalue : value = (op.effect ⟨total initial (order.map Event.operation)⟩).value)
    {answer : Option Int}
    (hanswer : answer = op.answerAt (total initial (order.map Event.operation))) :
    ∃ order', Orders initial programs
      ⟨value, s.holder, s.workers.set i { w with stage := .finished answer }⟩ order' := by
  have hholder := h.holder_eq hw hstage
  refine ⟨order ++ [⟨i, op, answer⟩], h.update hw (Or.inr hholder) (by simp) ?_
    (h.answered.concat hanswer) fun program hold => ⟨?_, hold.program, fun _ => hholder, ?_⟩⟩
  · rw [List.map_append, List.map_singleton, total_concat, hvalue]
  · have hpart : part i [⟨i, op, answer⟩] = [⟨i, op, answer⟩] := part_eq_self (by simp)
    rw [part_append, hpart, List.map_append, hold.history,
      Worker.effective_of_unfinished hunfinished,
      Worker.effective_of_finished (w := { w with stage := .finished answer }) rfl hpending]
    rfl
  · intro v hv
    cases hv

/-- **Every step extends the order or leaves it.** -/
theorem step (h : Orders initial programs s order) (hstep : Step i s t) :
    ∃ order', Orders initial programs t order' := by
  cases hstep with
  | @acquire w hw hstage hpending hfree =>
    refine ⟨order, h.silent hw (Or.inl hfree) ?_ rfl (fun _ => rfl) (fun v hv => by cases hv)⟩
    rw [Worker.effective_of_unfinished (w := w) (by simp [hstage])]
    rfl
  | @load w n rest hw hstage hpending =>
    have hholder := h.holder_eq hw (by simp [hstage])
    refine ⟨order, h.silent hw (Or.inr hholder) ?_ rfl (fun _ => hholder) (fun v hv => ?_)⟩
    · rw [Worker.effective_of_unfinished (w := w) (by simp [hstage])]
      rfl
    · cases hv
      rfl
  | @store w n value rest hw hstage hpending =>
    refine h.effect hw (by simp [hstage]) (by simp [hstage]) hpending ?_ rfl
    rw [h.loaded_eq hw hstage]
    rfl
  | @clear w rest hw hstage hpending =>
    exact h.effect hw (by simp [hstage]) (by simp [hstage]) hpending rfl rfl
  | @answer w rest hw hstage hpending =>
    refine h.effect hw (by simp [hstage]) (by simp [hstage]) hpending h.value ?_
    rw [h.value]
    rfl
  | @release w op rest answer hw hstage hpending =>
    have hholder := h.holder_eq hw (by simp [hstage])
    refine ⟨order, h.silent hw (Or.inr hholder) ?_ ?_ (fun hout => absurd rfl hout)
      (fun v hv => by cases hv)⟩
    · rw [Worker.effective_of_finished hstage hpending]
      rfl
    · rw [hpending, List.map_append, List.append_assoc]
      rfl

/-- **Every run has an order.** -/
theorem ofSteps (h : Steps (.start initial programs) s) :
    ∃ order, Orders initial programs s order := by
  induction h with
  | refl => exact ⟨[], start initial programs⟩
  | tail _ hstep ih =>
    obtain ⟨order, horder⟩ := ih
    exact horder.step hstep

/-! ### When every worker is done -/

theorem part_eq_completed (h : Orders initial programs s order) (hdone : s.Complete)
    (hw : s.workers[i]? = some w) : (part i order).map Event.record = w.completed := by
  obtain ⟨_, -, hfits⟩ := h.fits i w hw
  rw [hfits.history, Worker.effective_of_done (hdone w (List.mem_of_getElem? hw))]

/-- Everybody's part of the order is their program. -/
theorem part_eq_program (h : Orders initial programs s order) (hdone : s.Complete) (i : Nat) :
    (part i order).map Event.operation = programs[i]?.getD [] := by
  cases hw : s.workers[i]? with
  | some w =>
    obtain ⟨program, hprogram, hfits⟩ := h.fits i w hw
    have hpending := hdone w (List.mem_of_getElem? hw)
    have hparts := h.part_eq_completed hdone hw
    calc (part i order).map Event.operation
        = ((part i order).map Event.record).map Prod.fst := by rw [List.map_map]; rfl
      _ = w.completed.map Prod.fst ++ w.pending := by rw [hparts, hpending, List.append_nil]
      _ = programs[i]?.getD [] := by rw [hfits.program, hprogram, Option.getD_some]
  | none =>
    have hlength := List.getElem?_eq_none_iff.mp hw
    rw [h.length] at hlength
    have hnone : part i order = [] := by
      refine List.filter_eq_nil_iff.mpr fun e he heq => ?_
      have hlt := h.worker_lt e he
      rw [beq_iff_eq.mp heq] at hlt
      exact Nat.not_lt.mpr hlength hlt
    rw [hnone, List.getElem?_eq_none hlength]
    rfl

/-- The order is a rearrangement of all programs. -/
theorem perm_programs (h : Orders initial programs s order) (hdone : s.Complete) :
    (order.map Event.operation).Perm programs.flatten := by
  have hall : (order.filter fun e => decide (e.worker < programs.length)) = order :=
    List.filter_eq_self.mpr fun e he => decide_eq_true (h.worker_lt e he)
  have hparts : (List.range programs.length).map
      (fun i => (part i order).map Event.operation) = programs := by
    refine List.ext_getElem (by simp) fun i _ hi => ?_
    rw [List.getElem_map, List.getElem_range, h.part_eq_program hdone, List.getElem?_eq_getElem hi,
      Option.getD_some]
  have hperm := (perm_parts programs.length order).map Event.operation
  rw [hall, List.map_flatMap, List.flatMap_def, hparts] at hperm
  exact hperm.symm

end Orders

/-! ## Conclusion -/

/-- **Workers that share a counter might as well have taken turns.**  In any run that completes all
operations there is one order of them, each worker's in its own order, in which every read was
answered with the total of the operations before it, and the total of all of them is the value that
is left.  So no update is lost: without a reset, the value is the initial one and all that was
added. -/
theorem operations_take_turns {initial : Int} {programs : List (List Operation)} {s : Shared}
    (h : Steps (.start initial programs) s) (hdone : s.Complete) :
    (∃ order : List Event,
      (∀ i, (part i order).map Event.operation = programs[i]?.getD [])
        ∧ (∀ i w, s.workers[i]? = some w → (part i order).map Event.record = w.completed)
        ∧ (∀ before e after, order = before ++ e :: after → e.operation = .read →
          e.answer = some (total initial (before.map Event.operation)))
        ∧ s.value = total initial (order.map Event.operation))
      ∧ (.reset ∉ programs.flatten →
        s.value = initial + (programs.flatten.map Operation.amount).sum) := by
  obtain ⟨order, horder⟩ := Orders.ofSteps h
  refine ⟨⟨order, horder.part_eq_program hdone, fun i w => horder.part_eq_completed hdone,
    fun before e after heq hread => ?_, horder.value⟩, fun hreset => ?_⟩
  · rw [horder.answered before e after heq, hread]
    rfl
  · have hperm := horder.perm_programs hdone
    rw [horder.value, total_eq_sum fun hmem => hreset (hperm.mem_iff.mp hmem),
      (hperm.map Operation.amount).sum_eq]

/-- One worker adds to a counter that stands at `7`, and another one reads it afterwards. -/
theorem operations_take_turns_reading :
    ∃ s : Shared, Steps (.start 7 [[.add 2], [.read]]) s ∧ s.Complete
      ∧ .reset ∉ [[Operation.add 2], [.read]].flatten
      ∧ (∃ order : List Event,
        (∀ i, (part i order).map Event.operation = [[Operation.add 2], [.read]][i]?.getD [])
          ∧ (∀ i w, s.workers[i]? = some w → (part i order).map Event.record = w.completed)
          ∧ (∀ before e after, order = before ++ e :: after → e.operation = .read →
            e.answer = some (total 7 (before.map Event.operation)))
          ∧ s.value = total 7 (order.map Event.operation))
      ∧ s.value = 7 + ([[Operation.add 2], [.read]].flatten.map Operation.amount).sum := by
  have hentered : Steps (.start 7 [[.add 2], [.read]])
      ⟨7, some 0, [⟨[.add 2], .entered, []⟩, ⟨[.read], .outside, []⟩]⟩ :=
    (Steps.refl _).tail
      (Step.acquire (i := 0) (w := ⟨[.add 2], .outside, []⟩) rfl rfl (by simp) rfl)
  have hloaded : Steps (.start 7 [[.add 2], [.read]])
      ⟨7, some 0, [⟨[.add 2], .loaded 7, []⟩, ⟨[.read], .outside, []⟩]⟩ :=
    hentered.tail (Step.load (i := 0) (w := ⟨[.add 2], .entered, []⟩) rfl rfl rfl)
  have hstored : Steps (.start 7 [[.add 2], [.read]])
      ⟨9, some 0, [⟨[.add 2], .finished none, []⟩, ⟨[.read], .outside, []⟩]⟩ :=
    hloaded.tail (Step.store (i := 0) (w := ⟨[.add 2], .loaded 7, []⟩) rfl rfl rfl)
  have hadded : Steps (.start 7 [[.add 2], [.read]])
      ⟨9, none, [⟨[], .outside, [(.add 2, none)]⟩, ⟨[.read], .outside, []⟩]⟩ :=
    hstored.tail (Step.release (i := 0) (w := ⟨[.add 2], .finished none, []⟩) rfl rfl rfl)
  have hreading : Steps (.start 7 [[.add 2], [.read]])
      ⟨9, some 1, [⟨[], .outside, [(.add 2, none)]⟩, ⟨[.read], .entered, []⟩]⟩ :=
    hadded.tail (Step.acquire (i := 1) (w := ⟨[.read], .outside, []⟩) rfl rfl (by simp) rfl)
  have hanswered : Steps (.start 7 [[.add 2], [.read]])
      ⟨9, some 1, [⟨[], .outside, [(.add 2, none)]⟩, ⟨[.read], .finished (some 9), []⟩]⟩ :=
    hreading.tail (Step.answer (i := 1) (w := ⟨[.read], .entered, []⟩) rfl rfl rfl)
  have hread : Steps (.start 7 [[.add 2], [.read]])
      ⟨9, none, [⟨[], .outside, [(.add 2, none)]⟩, ⟨[], .outside, [(.read, some 9)]⟩]⟩ :=
    hanswered.tail (Step.release (i := 1) (w := ⟨[.read], .finished (some 9), []⟩) rfl rfl rfl)
  have hdone : Shared.Complete
      ⟨9, none, [⟨[], .outside, [(.add 2, none)]⟩, ⟨[], .outside, [(.read, some 9)]⟩]⟩ := by
    simp [Shared.Complete]
  obtain ⟨horder, hsum⟩ := operations_take_turns hread hdone
  exact ⟨_, hread, hdone, by simp, horder, hsum (by simp)⟩

end Noughts.Counter
