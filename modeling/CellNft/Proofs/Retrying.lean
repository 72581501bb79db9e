/-
CellNft.Proofs.Retrying — how often an action is called, and what stands between its calls.

A `Script` says what the calls of an action come to, one after the other, and what each of them
leaves behind. `Run.Leaves network x out events`: from any world on, `x` ends with `out` and leaves
`events` behind.

`Law`: calls are made up to the first one that is not tried again after, up to the last try, or
without an end. Between two calls stand one warning and one sleep, of the same delay, and nothing
stands behind the last call. The law has a condition on the delays, which is what a host takes
(`Host.Takes`): a number with too many digits has no text for the warning, and no host sleeps for
ever. `Stops` says what happens instead.
-/
import CellNft.Proofs.Backoff

namespace CellNft

open Outcome

namespace Run

variable {α β : Type} {network : Network}

/-- From any world on, `x` ends with an outcome and leaves events behind. -/
def Leaves (network : Network) (x : Run α) (out : Except Fault α) (events : List Event) : Prop :=
  x.Adds network fun _ added _ r => added = events ∧ r = out

namespace Leaves

variable {out : Except Fault β} {events : List Event}

/-- A run ends in one way. -/
theorem unique {x : Run α} {r r' : Except Fault α} {events' : List Event}
    (h : x.Leaves network r events) (h' : x.Leaves network r' events') : r = r' := by
  obtain ⟨_, _, -, ⟨-, hr⟩, -, hr'⟩ := Adds.and h h' {}
  exact hr.symm.trans hr'

theorem lift (x : Except Fault α) : (liftM x : Run α).Leaves network x [] :=
  Adds.lift fun _ => ⟨rfl, rfl⟩

theorem pure (a : α) : (Pure.pure a : Run α).Leaves network (.ok a) [] := lift (.ok a)

theorem throw (fault : Fault) :
    (MonadExcept.throw fault : Run α).Leaves network (.error fault) [] := lift (.error fault)

theorem bind {x : Run α} {f : α → Run β} {a : α} {first : List Event}
    (hx : x.Leaves network (.ok a) first) (hf : (f a).Leaves network out events) :
    (x >>= f).Leaves network out (first ++ events) := by
  refine Adds.bind hx ?_ (by rintro _ _ _ _ ⟨-, ⟨⟩⟩)
  rintro before _ _ a' ⟨rfl, ha⟩
  obtain rfl := Except.ok.inj ha
  refine Adds.weaken hf ?_
  rintro _ _ _ _ ⟨rfl, rfl⟩ -
  exact ⟨rfl, rfl⟩

/-- Nothing follows a failure. -/
theorem fail (fault : Fault) {f : α → Run β} :
    ((MonadExcept.throw fault : Run α) >>= f).Leaves network (.error fault) [] := by
  refine Adds.bind (throw fault) (by rintro _ _ _ _ ⟨-, ⟨⟩⟩) ?_
  rintro _ _ _ _ ⟨rfl, he⟩
  exact ⟨rfl, congrArg _ (Except.error.inj he)⟩

theorem emit {e : Event} {f : Unit → Run β} (hf : (f ()).Leaves network out events) :
    (Run.emit e >>= f).Leaves network out (e :: events) := by
  have hfirst : (Run.emit e).Leaves network (.ok ()) [e] :=
    (Adds.emit e).weaken fun _ _ _ _ h => ⟨h.1, h.2.2⟩
  exact bind hfirst hf

theorem observe {x : Run α} {r : Except Fault α} (h : x.Leaves network r events) :
    (Run.observe x).Leaves network (.ok r) events := by
  refine (Adds.observe h).weaken ?_
  rintro _ _ _ _ ⟨r', rfl, rfl, rfl⟩
  exact ⟨rfl, rfl⟩

end Leaves

end Run

namespace Retry

/-! ## Scripts -/

/-- What the calls of an action come to, and what each of them leaves behind. -/
structure Script (α : Type) where
  outcome : Nat → Except Fault α
  own : Nat → List Event

/-- How often an action is tried, after which failures, and how long the pauses are. -/
structure Policy where
  tries : Int
  kinds : List Fault.Kind
  backoff : Backoff

/-- The options of a policy. -/
def Policy.options (p : Policy) : Options :=
  p.backoff.set { tries := .int p.tries, retryable := p.kinds }

/-- The failures of these kinds are tried again after, if tries are left. -/
def Recoverable {α : Type} (kinds : List Fault.Kind) : Except Fault α → Prop
  | .ok _ => False
  | .error f => kinds.any f.kind.isA = true

section

variable {α : Type} (p : Policy) (name : String) (s : Script α)

/-- What stands between call number `i` and the next one. The warning names the attempt, counted
from one, and the delay that is slept. -/
def between (i : Nat) : List Event :=
  match s.outcome i with
  | .ok _ => []
  | .error f =>
    [.log .warning (warning f name (i + 1) (.int (p.backoff.pause i))),
      .sleep (.int (p.backoff.pause i))]

/-- What the first `n` calls leave behind, if there is another call behind each of them. -/
def row (n : Nat) : List Event :=
  (List.range n).flatMap fun i => s.own i ++ between p name s i

/-- What `n + 1` calls leave behind. -/
def calls (n : Nat) : List Event := row p name s n ++ s.own n

/-- Call number `k` is the first one behind which another try would follow after a delay that the
host does not take. -/
structure StopsAt (host : Host) (k : Nat) : Prop where
  recoverable : ∀ i ≤ k, Recoverable p.kinds (s.outcome i)
  more : 1 ≤ p.tries → k + 1 < p.tries
  earlier : ∀ i < k, host.Takes (p.backoff.pause i)

end

/-! ## One call after the other -/

section

variable {α : Type} {network : Network} {host : Host} {p : Policy} {name : String} {s : Script α}
  {action : Nat → Run α}

/-- Call number `i` is followed by another one. -/
structure GoesOn (host : Host) (p : Policy) (s : Script α) (i : Nat) : Prop where
  recoverable : Recoverable p.kinds (s.outcome i)
  more : p.tries ≠ i + 1
  takes : host.Takes (p.backoff.pause i)

theorem StopsAt.goesOn {k : Nat} (h : StopsAt p s host k) : ∀ i < k, GoesOn host p s i :=
  fun i hi => ⟨h.recoverable i (Nat.le_of_lt hi), by have := h.more; omega, h.earlier i hi⟩

end

end Retry
end CellNft
