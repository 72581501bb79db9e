/-
CellNft.Proofs.Backoff — how long the pauses between tries are.

A `Backoff` is the part of the options that says how long to wait, in whole numbers. `Backoff.pause`
is the delay behind each call, as it is computed: every delay is made from the one before and then
limited. `Backoff.capped` grows without a limit and is limited at the end. `pause_eq_capped`: both
are the same, since a delay that has reached the limit never falls below it again.

`loop_succ` is one try in whole numbers. `Spaced` is a run by its pauses, and by induction on the
fuel the pauses of any run are the first ones of these delays. That holds of every host. One that
refuses a delay ends the run before it has slept.
-/
import CellNft.Proofs.Plans
import Mathlib.Order.Monotone.Basic

namespace CellNft

open Outcome

/-- How long a world has slept. -/
def World.sleeps (w : World) : List Scalar :=
  w.trace.filterMap fun
    | .sleep seconds => some seconds
    | _ => none

theorem World.sleeps_record (w : World) (e : Event) :
    (w.record e).sleeps = w.sleeps ++ (match e with | .sleep seconds => [seconds] | _ => []) := by
  cases e <;> simp [sleeps, record, List.filterMap_append]

namespace Host

/-- A delay that a warning can name and that can be slept. -/
structure Takes (host : Host) (delay : Nat) : Prop where
  named : Integer.exceeds delay = false
  accepted : host.refuses (.int delay) = none

theorem cooperative_takes_of_isSome {delay : Nat} (hshort : Integer.exceeds delay = false)
    (h : (Number.toBinary64? (.int delay)).isSome = true) : cooperative.Takes delay :=
  ⟨hshort, by simp only [cooperative, cooperativeRefusal?, Scalar.number?, h, Bool.or_true, if_true]⟩

end Host

namespace Retry

/-! ## Delays in whole numbers -/

/-- The first delay, and how the others come from it. -/
structure Backoff where
  delay : Nat
  backoff : Nat := 1
  jitter : Nat := 0
  maxDelay : Option Nat := none

namespace Backoff

variable (b : Backoff)

/-- Options with these delays. -/
def set (o : Options) : Options :=
  { o with
    delay := .int b.delay
    backoff := .int b.backoff
    jitter := .fixed (.int b.jitter)
    maxDelay := match b.maxDelay with
      | none => .null
      | some m => .int m }

/-- The next delay, without a limit. -/
def grow (x : Nat) : Nat := b.backoff * x + b.jitter

/-- The next delay; zero is no limit. -/
def next (x : Nat) : Nat :=
  match b.maxDelay with
  | none | some 0 => b.grow x
  | some m => min (b.grow x) m

/-- The delay behind call number `i`, counted from zero. -/
def pause (b : Backoff) : Nat → Nat
  | 0 => b.delay
  | i + 1 => b.next (b.pause i)

/-- The delays as they would be without a limit. -/
def unlimited (b : Backoff) : Nat → Nat
  | 0 => b.delay
  | i + 1 => b.grow (b.unlimited i)

/-- Those delays, all but the first of them limited. -/
def capped (b : Backoff) : Nat → Nat
  | 0 => b.delay
  | i + 1 =>
    match b.maxDelay with
    | none => b.unlimited (i + 1)
    | some m => min (b.unlimited (i + 1)) m

theorem nextDelay_set (o : Options) (chance : Binary64) (x : Nat) :
    nextDelay (b.set o) chance (.int x) = .ok (.int (b.next x)) := by
  have hmul : (Scalar.int x).mul (.int b.backoff) = .ok (.int ↑(x * b.backoff)) := rfl
  have hadd : (Scalar.int ↑(x * b.backoff)).add (.int b.jitter) = .ok (.int (b.grow x)) := by
    rw [grow, Nat.mul_comm b.backoff]
    rfl
  have hbelow (m : Nat) : (Scalar.int m).below (.int (b.grow x)) = .ok (decide (m < b.grow x)) := by
    have hlt : decide ((m : Int) < b.grow x) = decide (m < b.grow x) := by simp
    exact congrArg Except.ok hlt
  have hdelay : (Value.int x).toScalar = .ok (.int x) := rfl
  have hbackoff : (b.set o).backoff.toScalar = .ok (.int b.backoff) := rfl
  have hjitter : (b.set o).jitter.amount chance = .ok (.int b.jitter) := rfl
  simp only [nextDelay, hdelay, hbackoff, hjitter, ok_bind, hmul, hadd]
  rw [next]
  cases hmax : b.maxDelay with
  | none => simp [set, hmax, Value.holds, Scalar.holds]
  | some m =>
    cases m with
    | zero => simp [set, hmax, Value.holds, Scalar.holds]
    | succ m =>
      have hmost : (b.set o).maxDelay = .int ↑(m + 1) := by simp only [set, hmax]
      have hholds : (Value.int ↑(m + 1)).holds = true := by
        simp only [Value.holds, Scalar.holds, decide_eq_true_eq]
        omega
      rw [hmost, hholds, if_pos rfl, Value.toScalar, ok_bind, hbelow, ok_bind, pure_eq_ok]
      simp only [decide_eq_true_eq]
      split
      · rw [Nat.min_eq_right (by omega)]
      · rw [Nat.min_eq_left (by omega)]

/-! ## One limit instead of many -/

section

variable {b}

theorem le_grow (h : 1 ≤ b.backoff) (x : Nat) : x ≤ b.grow x :=
  Nat.le_trans (Nat.le_mul_of_pos_left x h) (Nat.le_add_right _ _)

theorem unlimited_mono (h : 1 ≤ b.backoff) : Monotone b.unlimited :=
  monotone_nat_of_le_succ fun i => le_grow h (b.unlimited i)

theorem next_of_none (hlimit : b.maxDelay = none) (x : Nat) : b.next x = b.grow x := by
  rw [next, hlimit]

theorem next_of_some {m : Nat} (hlimit : b.maxDelay = some m) (hm : 1 ≤ m) (x : Nat) :
    b.next x = min (b.grow x) m := by
  rw [next, hlimit]
  cases m with
  | zero => omega
  | succ m => rfl

/-- A limit that is applied again later makes no difference where it is applied first. -/
theorem min_grow (h : 1 ≤ b.backoff) (x m : Nat) :
    min (b.grow (min x m)) m = min (b.grow x) m := by
  rcases Nat.le_total x m with hle | hle
  · rw [Nat.min_eq_left hle]
  · have hlimit := le_grow h m
    have hgrown := Nat.le_trans hle (le_grow h x)
    rw [Nat.min_eq_right hle, Nat.min_eq_right hlimit, Nat.min_eq_right hgrown]

theorem pause_of_none (hlimit : b.maxDelay = none) (i : Nat) : b.pause i = b.unlimited i := by
  induction i with
  | zero => rfl
  | succ i ih => rw [pause, next_of_none hlimit, ih, unlimited]

/-- The first delay is not limited, so the induction starts with the second. -/
theorem pause_of_some {m : Nat} (h : 1 ≤ b.backoff) (hlimit : b.maxDelay = some m) (hm : 1 ≤ m)
    (i : Nat) : b.pause (i + 1) = min (b.unlimited (i + 1)) m := by
  induction i with
  | zero => exact next_of_some hlimit hm b.delay
  | succ i ih =>
    calc b.pause (i + 2)
      _ = min (b.grow (b.pause (i + 1))) m := next_of_some hlimit hm _
      _ = min (b.grow (min (b.unlimited (i + 1)) m)) m := by rw [ih]
      _ = min (b.unlimited (i + 2)) m := min_grow h _ m

/-- **Limiting every delay is limiting each of them once.** -/
theorem pause_eq_capped (h : 1 ≤ b.backoff) (hmax : b.maxDelay ≠ some 0) (i : Nat) :
    b.pause i = b.capped i := by
  cases i with
  | zero => rfl
  | succ i =>
    rw [capped]
    cases hlimit : b.maxDelay with
    | none => exact pause_of_none hlimit (i + 1)
    | some m =>
      have hm : 1 ≤ m := by
        rcases Nat.eq_zero_or_pos m with rfl | hm
        · exact absurd hlimit hmax
        · exact hm
      exact pause_of_some h hlimit hm i

theorem capped_le {m : Nat} (hlimit : b.maxDelay = some m) (i : Nat) : b.capped (i + 1) ≤ m := by
  rw [capped, hlimit]
  exact Nat.min_le_right _ _

theorem capped_mono (h : 1 ≤ b.backoff) : Monotone fun i => b.capped (i + 1) := by
  intro i k hik
  have hunlimited := unlimited_mono h (Nat.add_le_add_right hik 1)
  simp only [capped]
  split
  · exact hunlimited
  · exact Nat.le_min.mpr ⟨Nat.le_trans (Nat.min_le_left _ _) hunlimited, Nat.min_le_right _ _⟩

/-- The delays behind the first one. -/
theorem tail_capped (count : Nat) :
    ((List.range count).map b.capped).tail
      = (List.range (count - 1)).map fun i => b.capped (i + 1) := by
  cases count with
  | zero => rfl
  | succ count =>
    rw [List.range_succ_eq_map, List.map_cons, List.tail_cons, List.map_map]
    rfl

end

end Backoff

/-! ## One try -/

section

variable {α : Type} {network : Network} {b : Backoff} {o : Options} {name : String}

/-- A try with a delay to come that is a whole number. -/
theorem loop_succ (host : Host) (b : Backoff) (o : Options) (name : String)
    (action : Nat → Run α) (fuel attempt : Nat) (tries : Value) (x : Nat) :
    loop host (b.set o) name action (fuel + 1) attempt tries (.int x) = (do
      match ← Run.observe (action attempt) with
      | .ok a => return some a
      | .error f =>
        if !o.retries f then throw f
        let left ← (← tries.toScalar).sub (.int 1)
        if !left.holds then throw f
        if !o.warns then throw .noSuchMethod
        Run.logNaming .warning [.int x] (warning f name attempt (.int x))
        Run.sleep host (.int x)
        loop host (b.set o) name action fuel (attempt + 1) (.scalar left) (.int (b.next x))) := by
  have hdelay : (Value.int x).toScalar = .ok (.int x) := rfl
  refine bind_congr fun r => ?_
  cases r with
  | ok a => rfl
  | error f =>
    simp only [hdelay, b.nextDelay_set, Run.lift_ok, pure_bind]
    rfl

/-- The same where the tries are counted in whole numbers. -/
theorem loop_succ_int (host : Host) (b : Backoff) (o : Options) (name : String)
    (action : Nat → Run α) (fuel attempt : Nat) (left : Int) (x : Nat) :
    loop host (b.set o) name action (fuel + 1) attempt (.int left) (.int x) = (do
      match ← Run.observe (action attempt) with
      | .ok a => return some a
      | .error f =>
        if !o.retries f then throw f
        if left = 1 then throw f
        if !o.warns then throw .noSuchMethod
        Run.logNaming .warning [.int x] (warning f name attempt (.int x))
        Run.sleep host (.int x)
        loop host (b.set o) name action fuel (attempt + 1) (.int (left - 1)) (.int (b.next x))) := by
  rw [loop_succ]
  refine bind_congr fun r => ?_
  cases r with
  | ok a => rfl
  | error f =>
    have hleft : (Scalar.int left).sub (.int 1) = .ok (.int (left - 1)) := rfl
    have hholds : (!(Scalar.int (left - 1)).holds) = true ↔ left = 1 := by
      simp only [Scalar.holds, Bool.not_eq_true', decide_eq_false_iff_not, not_not]
      omega
    simp only [Value.toScalar, hleft, Run.lift_ok, pure_bind, hholds]

/-- After a try the run ends, with a warning at most, or it goes on behind a warning and a pause. -/
theorem loop_cases (host : Host) (b : Backoff) (o : Options) (name : String)
    (action : Nat → Run α) (fuel attempt : Nat) (tries : Value) (x : Nat) (w : World) :
    ((loop host (b.set o) name action (fuel + 1) attempt tries (.int x)).exec network w).2
        = ((action attempt).exec network w).2 ∨
      ∃ line, ((loop host (b.set o) name action (fuel + 1) attempt tries (.int x)).exec network w).2
          = ((action attempt).exec network w).2.record (.log .warning line) ∨
        ∃ left, (loop host (b.set o) name action (fuel + 1) attempt tries (.int x)).exec network w
          = (loop host (b.set o) name action fuel (attempt + 1) left (.int (b.next x))).exec network
            ((((action attempt).exec network w).2.record (.log .warning line)).record
              (.sleep (.int x))) := by
  rw [loop_succ, Run.exec_bind, Run.exec_observe]
  rcases (action attempt).exec network w with ⟨f | a, w'⟩
  · simp only
    split
    · exact .inl rfl
    cases tries.toScalar with
    | error e => exact .inl rfl
    | ok count =>
      rw [Run.lift_ok, pure_bind]
      cases count.sub (.int 1) with
      | error e => exact .inl rfl
      | ok left =>
        rw [Run.lift_ok, pure_bind]
        split
        · exact .inl rfl
        split
        · exact .inl rfl
        rw [Run.logNaming, Run.sleep]
        split
        · cases host.refuses (.int x) with
          | some fault => exact .inr ⟨_, .inl rfl⟩
          | none => exact .inr ⟨_, .inr ⟨_, rfl⟩⟩
        · exact .inl rfl
  · exact .inl rfl

/-! ## The pauses of a run -/

/-- From one world to another by tries with such pauses between them, each with a line in the log.
What the tries themselves do is left open. -/
inductive Spaced (network : Network) (action : Nat → Run α) :
    (attempt : Nat) → List Nat → World → World → Prop
  | unfinished (attempt : Nat) (w : World) : Spaced network action attempt [] w w
  | last (attempt : Nat) (w : World) :
      Spaced network action attempt [] w ((action attempt).exec network w).2
  | refused (attempt : Nat) (w : World) (line : Text) : Spaced network action attempt [] w
      (((action attempt).exec network w).2.record (.log .warning line))
  | again {attempt seconds : Nat} {rest : List Nat} {w w' : World} (line : Text)
      (spaced : Spaced network action (attempt + 1) rest
        ((((action attempt).exec network w).2.record (.log .warning line)).record
          (.sleep (.int seconds))) w') :
      Spaced network action attempt (seconds :: rest) w w'

/-- The pauses are the delays from number `i` on, as many as there are. -/
theorem loop_spaced (network : Network) (host : Host) (b : Backoff) (o : Options) (name : String)
    (action : Nat → Run α) (fuel attempt : Nat) (tries : Value) (i : Nat) (w : World) :
    ∃ count, Spaced network action attempt ((List.range' i count).map b.pause) w
      ((loop host (b.set o) name action fuel attempt tries (.int (b.pause i))).exec network w).2 := by
  induction fuel generalizing attempt tries i w with
  | zero => exact ⟨0, .unfinished attempt w⟩
  | succ fuel ih =>
    rcases loop_cases host b o name action fuel attempt tries (b.pause i) w with
      hends | ⟨line, hends | ⟨left, hrest⟩⟩
    · exact ⟨0, hends ▸ .last attempt w⟩
    · exact ⟨0, hends ▸ .refused attempt w line⟩
    · obtain ⟨count, hspaced⟩ := ih (attempt + 1) left (i + 1) _
      exact ⟨count + 1, hrest ▸ .again line hspaced⟩

/-- Where the tries do not sleep, the sleeps are the pauses between them. -/
theorem Spaced.sleeps_eq {action : Nat → Run α} {attempt : Nat} {seconds : List Nat} {w w' : World}
    (quiet : ∀ attempt w, ((action attempt).exec network w).2.sleeps = w.sleeps)
    (h : Spaced network action attempt seconds w w') :
    w'.sleeps = w.sleeps ++ seconds.map fun n : Nat => Scalar.int n := by
  induction h with
  | unfinished => exact (List.append_nil _).symm
  | last attempt w => exact (quiet attempt w).trans (List.append_nil _).symm
  | refused attempt w line => simp [World.sleeps_record, quiet]
  | again line _ ih =>
    rw [ih, World.sleeps_record, World.sleeps_record, quiet]
    simp

/-- **The pauses of any run are the delays that grow without a limit and are then limited.** So the
limit holds for all but the first, and from the second on none is shorter than the one before. -/
theorem Entry.spaced_capped {e : Entry} {keywords : Keywords}
    (hoptions : e.options = .ok (b.set o, keywords)) (hbackoff : 1 ≤ b.backoff)
    (hmax : b.maxDelay ≠ some 0) (network : Network) (host : Host) (name : String)
    (action : Keywords → Nat → Run α) (fuel : Nat) (w : World) :
    ∃ pauses : List Nat,
      Spaced network (action keywords) 1 pauses w
        ((e.run host name action fuel).exec network w).2 ∧
      (∀ i (hi : i < pauses.length), pauses[i] = b.capped i) ∧
      (∀ m, b.maxDelay = some m → ∀ seconds ∈ pauses.tail, seconds ≤ m) ∧
      pauses.tail.Pairwise (· ≤ ·) := by
  have hcapped : b.pause = b.capped := funext (Backoff.pause_eq_capped hbackoff hmax)
  obtain ⟨count, hspaced⟩ := loop_spaced network host b o name (action keywords) fuel 1 o.tries 0 w
  rw [hcapped, ← List.range_eq_range'] at hspaced
  refine ⟨(List.range count).map b.capped, ?_, fun i hi => by simp, ?_⟩
  · rw [Entry.run, hoptions]
    exact hspaced
  · rw [Backoff.tail_capped]
    refine ⟨fun m hm seconds hmem => ?_, ?_⟩
    · obtain ⟨i, -, rfl⟩ := List.mem_map.mp hmem
      exact Backoff.capped_le hm i
    · exact List.pairwise_map.mpr <|
        List.pairwise_lt_range.imp fun hlt => Backoff.capped_mono hbackoff (Nat.le_of_lt hlt)

/-- There is nobody to talk to. -/
def deadNetwork : Network := fun _ _ => .unreachable "no route"

/-- Every call fails. -/
def failingAction (_ : Keywords) (_ : Nat) : Run Value := throw (.raised .connection "boom")

/-- Delays of one, three and seven seconds, if there were no limit of six. -/
def sampleBackoff : Backoff := ⟨1, 2, 1, some 6⟩

def sampleEntry : Entry :=
  .wrapped [("tries", .int 5), ("delay", .int 1), ("backoff", .int 2), ("jitter", .int 1),
    ("max_delay", .int 6)] [("value", .int 7)]

theorem Entry.spaced_capped_limited :
    sampleEntry.options = .ok (sampleBackoff.set { tries := .int 5 }, [("value", .int 7)]) ∧
    1 ≤ sampleBackoff.backoff ∧ sampleBackoff.maxDelay ≠ some 0 ∧
    Spaced deadNetwork (failingAction [("value", .int 7)]) 1 [1, 3, 6, 6] {}
      ((sampleEntry.run .blocking "fetch" failingAction 5).exec deadNetwork {}).2 ∧
    sampleBackoff.capped 2 = 6 ∧ [3, 6, 6].Pairwise (· ≤ ·) := by
  have hoptions : sampleEntry.options
      = .ok (sampleBackoff.set { tries := .int 5 }, [("value", .int 7)]) := rfl
  obtain ⟨pauses, hspaced, hcapped, hlimit, hmono⟩ := Entry.spaced_capped hoptions (by decide)
    (by decide) deadNetwork .blocking "fetch" failingAction 5 {}
  have hsleeps := hspaced.sleeps_eq fun _ _ => rfl
  have hinjective : Function.Injective fun n : Nat => Scalar.int n := fun _ _ h =>
    Int.ofNat_inj.mp (Scalar.int.inj h)
  obtain rfl : [1, 3, 6, 6] = pauses :=
    (hinjective.list_map (hsleeps.symm.trans (by decide +kernel))).symm
  exact ⟨hoptions, by decide, by decide, hspaced, (hcapped 2 (by decide)).symm, hmono⟩

end

end Retry
end CellNft
