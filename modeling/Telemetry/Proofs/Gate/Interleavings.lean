import Mathlib.Algebra.Order.BigOperators.Group.List
import Mathlib.Algebra.Order.Ring.Nat
import Mathlib.Logic.Relation
import Telemetry.Proofs.Gate.Conversations

/-!
# Requests at the same time

A gate over memory that handles several requests at a time. Each step answers the next call of one of
them, whichever it is, so that a run stands for an order in which the calls of all requests can
interleave. The order in which they were answered is kept, and so is the conversation of each
request.

Main statements: `Pool.Faithful.next`, what every step keeps, and `Pool.Faithful.length_le`: a run
has no more than twelve steps for each request.
-/

namespace Telemetry.Gate

/-! ## Programs on their way -/

namespace Program

variable {α : Type} {p q : Program α} {xs : List Exchange} {c : Call}
  {next : c.Answer → Program α} {P : Call → Prop} {Q : α → Prop} {n : Nat}

/-- What is left of a program after some of its calls have been answered. -/
inductive Leaves : Program α → List Exchange → Program α → Prop
  | here (p : Program α) : Leaves p [] p
  | call {c : Call} {next : c.Answer → Program α} (answer : c.Answer) {xs : List Exchange}
    {q : Program α} (h : Leaves (next answer) xs q) : Leaves (.call c next) (⟨c, answer⟩ :: xs) q

theorem Leaves.snoc (h : p.Leaves xs (.call c next)) (answer : c.Answer) :
    p.Leaves (xs ++ [⟨c, answer⟩]) (next answer) := by
  generalize hq : Program.call c next = q at h
  induction h with
  | here p =>
    rw [← hq]
    exact .call answer (.here _)
  | call given _ ih => exact .call given (ih hq)

/-- What has led a program to its end is a conversation. -/
theorem Leaves.converses {a : α} (h : p.Leaves xs (.done a)) : p.Converses xs a := by
  generalize hq : Program.done a = q at h
  induction h with
  | here p =>
    rw [← hq]
    exact .done a
  | call given _ ih => exact .call given (ih hq)

theorem Leaves.length_le (h : p.Leaves xs q) (hp : p.Obeys P Q n) : xs.length ≤ n := by
  induction h generalizing n with
  | here p => exact Nat.zero_le n
  | call answer _ ih =>
    cases n with
    | zero => exact hp.elim
    | succ n => exact Nat.succ_le_succ (ih (hp.2 answer))

end Program

namespace Collaborators

variable {cap : Int} {s t : Collaborators} {arrivals : List Arrival}

/-! ## Pools -/

/-- A request on its way: what arrived, its conversation so far, and what is left of its program. -/
structure Pending where
  arrival : Arrival
  said : List Exchange
  rest : Program (Except Fault Result)

/-- The status of the result that the request has been answered with. -/
def Pending.status? (w : Pending) : Option Nat :=
  match w.rest with
  | .done (.ok r) => some r.status
  | _ => none

/-- A gate with the requests that it handles, and all calls that have been answered, in order. -/
structure Pool where
  state : Collaborators
  requests : List Pending
  trace : List Exchange

namespace Pool

/-- The gate when requests have arrived. -/
def start (cap : Int) (s : Collaborators) (arrivals : List Arrival) : Pool :=
  ⟨s, arrivals.map fun arrival => ⟨arrival, [], arrival.program cap⟩, []⟩

/-- The next call of one request is answered. -/
inductive Next : Pool → Pool → Prop
  | call (s : Collaborators) (before after : List Pending) (arrival : Arrival)
    (said : List Exchange) (c : Call) (next : c.Answer → Program (Except Fault Result))
    (trace : List Exchange) :
    Next ⟨s, before ++ ⟨arrival, said, .call c next⟩ :: after, trace⟩
      ⟨(handle c s).2,
        before ++ ⟨arrival, said ++ [⟨c, (handle c s).1⟩], next (handle c s).1⟩ :: after,
        trace ++ [⟨c, (handle c s).1⟩]⟩

/-- Requests that have arrived at the same time lead to a pool, in some order of their calls. -/
def Interleaved (cap : Int) (s : Collaborators) (arrivals : List Arrival) (p : Pool) : Prop :=
  Relation.ReflTransGen Next (start cap s arrivals) p

/-- No call is left to be answered. -/
def IsOver (p : Pool) : Prop := ∀ q, ¬ Next p q

/-- In a pool that is over, every request has been answered. -/
theorem IsOver.done {p : Pool} (h : p.IsOver) {w : Pending} (hw : w ∈ p.requests) :
    ∃ answer, w.rest = .done answer := by
  obtain ⟨before, after, hrequests⟩ := List.append_of_mem hw
  obtain ⟨state, requests, trace⟩ := p
  obtain ⟨arrival, said, rest⟩ := w
  obtain rfl : requests = _ := hrequests
  cases rest with
  | done answer => exact ⟨answer, rfl⟩
  | call c next => exact absurd (.call state before after arrival said c next trace) (h _)

theorem isOver_of_done {p : Pool} (h : ∀ w ∈ p.requests, ∃ answer, w.rest = .done answer) :
    p.IsOver := by
  rintro q ⟨s, before, after, arrival, said, c, next, trace⟩
  obtain ⟨answer, hrest⟩ := h _ (List.mem_append_right _ (.head _))
  cases hrest

/-! ## What every step keeps -/

/-- An exchange as it happens over memory: the call is answered in a state of the same setting. -/
def Answered (s : Collaborators) (x : Exchange) : Prop :=
  ∃ t, SameSetting s t ∧ x.2 = (handle x.1 t).1

/-- A pool tells truly what its requests have said, and in which setting they were answered. -/
structure Faithful (cap : Int) (s : Collaborators) (arrivals : List Arrival) (p : Pool) : Prop where
  setting : SameSetting s p.state
  arrivals : p.requests.map Pending.arrival = arrivals
  leaves : ∀ w ∈ p.requests, (w.arrival.program cap).Leaves w.said w.rest
  answered : ∀ w ∈ p.requests, ∀ x ∈ w.said, Answered s x
  /-- The trace is made up of the conversations. -/
  shared : ∀ q : Exchange → Bool,
    p.trace.countP q = (p.requests.map fun w => w.said.countP q).sum

theorem faithful_start (cap : Int) (s : Collaborators) (arrivals : List Arrival) :
    Faithful cap s arrivals (start cap s arrivals) where
  setting := ⟨rfl, rfl, rfl, rfl⟩
  arrivals := by
    show (arrivals.map _).map Pending.arrival = arrivals
    rw [List.map_map]
    exact List.map_id arrivals
  leaves := by
    intro w hw
    obtain ⟨arrival, -, rfl⟩ := List.mem_map.mp hw
    exact .here _
  answered := by
    intro w hw x hx
    obtain ⟨arrival, -, rfl⟩ := List.mem_map.mp hw
    exact absurd hx List.not_mem_nil
  shared := by
    intro q
    refine Eq.symm (List.sum_eq_zero fun n hn => ?_)
    obtain ⟨w, hw, rfl⟩ := List.mem_map.mp hn
    obtain ⟨arrival, -, rfl⟩ := List.mem_map.mp hw
    rfl

/-- **Every step keeps the pool faithful.** -/
theorem Faithful.next {p q : Pool} (h : Faithful cap s arrivals p) (hnext : Next p q) :
    Faithful cap s arrivals q := by
  obtain ⟨t, before, after, arrival, said, c, next, trace⟩ := hnext
  have hmem : (⟨arrival, said, .call c next⟩ : Pending)
      ∈ before ++ ⟨arrival, said, .call c next⟩ :: after := List.mem_append_right _ (.head _)
  refine ⟨h.setting.trans (sameSetting_handle c t), ?_, fun w hw => ?_, fun w hw x hx => ?_,
    fun q => ?_⟩
  · rw [← h.arrivals, List.map_append, List.map_append]
    rfl
  · rcases List.mem_append.mp hw with hw | hw
    · exact h.leaves w (List.mem_append_left _ hw)
    · rcases List.mem_cons.mp hw with rfl | hw
      · exact (h.leaves _ hmem).snoc _
      · exact h.leaves w (List.mem_append_right _ (.tail _ hw))
  · rcases List.mem_append.mp hw with hw | hw
    · exact h.answered w (List.mem_append_left _ hw) x hx
    · rcases List.mem_cons.mp hw with rfl | hw
      · rcases List.mem_append.mp hx with hx | hx
        · exact h.answered _ hmem x hx
        · exact ⟨t, h.setting, by rw [List.mem_singleton.mp hx]⟩
      · exact h.answered w (List.mem_append_right _ (.tail _ hw)) x hx
  · have hshared := h.shared q
    simp only [List.map_append, List.map_cons, List.sum_append, List.sum_cons] at hshared ⊢
    rw [List.countP_append, List.countP_append, hshared]
    omega

theorem Interleaved.faithful {p : Pool} (h : Interleaved cap s arrivals p) :
    Faithful cap s arrivals p := by
  induction h with
  | refl => exact faithful_start cap s arrivals
  | tail _ hnext ih => exact ih.next hnext

/-- **A run has at most twelve steps for each request.** -/
theorem Faithful.length_le {p : Pool} (h : Faithful cap s arrivals p) :
    p.trace.length ≤ 12 * arrivals.length := by
  have hshared := h.shared fun _ => true
  simp only [List.countP_true] at hshared
  rw [hshared, ← h.arrivals, List.length_map]
  have hbound : ∀ n ∈ p.requests.map (fun w => w.said.length), n ≤ 12 := by
    intro n hn
    obtain ⟨w, hw, rfl⟩ := List.mem_map.mp hn
    exact (h.leaves w hw).length_le (answers_program cap w.arrival)
  have hsum := List.sum_le_card_nsmul _ 12 hbound
  rw [List.length_map, Nat.nsmul_eq_mul, Nat.mul_comm] at hsum
  exact hsum

/-! ## Schedules -/

/-- The next call of the request at a place is answered, if there is one. -/
def advance (p : Pool) (place : Nat) : Pool :=
  match p.requests[place]? with
  | some ⟨arrival, said, .call c next⟩ =>
    let (answer, state) := handle c p.state
    ⟨state, p.requests.set place ⟨arrival, said ++ [⟨c, answer⟩], next answer⟩,
      p.trace ++ [⟨c, answer⟩]⟩
  | _ => p

/-- The next calls of the requests at these places are answered, in this order. -/
def follow (p : Pool) (places : List Nat) : Pool := places.foldl advance p

theorem advance_cases (p : Pool) (place : Nat) :
    p.advance place = p ∨ Next p (p.advance place) := by
  unfold advance
  split
  · rename_i arrival said c next hplace
    obtain ⟨hlt, hget⟩ := List.getElem?_eq_some_iff.mp hplace
    obtain ⟨state, requests, trace⟩ := p
    have hsplit : requests = requests.take place ++ ⟨arrival, said, .call c next⟩ ::
        requests.drop (place + 1) := by
      rw [← hget, ← List.drop_eq_getElem_cons hlt, List.take_append_drop]
    refine Or.inr ?_
    dsimp only
    rw [List.set_eq_take_append_cons_drop, if_pos hlt]
    conv => arg 1; rw [hsplit]
    exact .call ..
  · exact Or.inl rfl

theorem interleaved_follow (cap : Int) (s : Collaborators) (arrivals : List Arrival)
    (places : List Nat) : Interleaved cap s arrivals ((start cap s arrivals).follow places) := by
  suffices h : ∀ p, Interleaved cap s arrivals p → Interleaved cap s arrivals (p.follow places) from
    h _ .refl
  intro p hp
  induction places generalizing p with
  | nil => exact hp
  | cons place places ih =>
    refine ih (p.advance place) ?_
    rcases p.advance_cases place with hsame | hnext
    · rw [hsame]
      exact hp
    · exact hp.tail hnext

theorem isOver_of_status {p : Pool} {status : Nat}
    (h : ∀ w ∈ p.requests, w.status? = some status) : p.IsOver := by
  refine isOver_of_done fun w hw => ?_
  have hstatus := h w hw
  unfold Pending.status? at hstatus
  split at hstatus
  · rename_i r hrest
    exact ⟨_, hrest⟩
  · cases hstatus

end Pool

end Collaborators

end Telemetry.Gate
