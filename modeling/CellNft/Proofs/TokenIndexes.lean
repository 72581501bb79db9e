/-
CellNft.Proofs.TokenIndexes — when no token is minted twice.

A withdrawal keeps the token index that it comes with. Any other one gets a number, which is the
number of tokens issued so far plus its place. The places of withdrawals that come with an index are
not left out, and nobody compares: so a given index may be the number of another withdrawal
(`assignIndexes_repeats`), and apart from that no index is used twice (`assignIndexes_nodup_iff`).

What the withdrawals get is, but for the order, what they come with and what is numbered
(`perm_indexes`). Numbers are never the same (`nodup_numbered`), so all depends on whether the two
have an index in common.
-/
import CellNft.Proofs.Decoding
import CellNft.Proofs.Submission

namespace CellNft.Cota.Mint

open Outcome

/-- The token index that a withdrawal comes with. -/
def given? (withdrawal : Value) : Option Text :=
  match withdrawal.field "tokenIndex" with
  | .ok (.str t) => if t.isEmpty then none else some t
  | _ => none

/-- What a withdrawal comes with in the place of its token index is a text, if it is anything. -/
def ComesWithText (withdrawal : Value) : Prop :=
  ∀ v, withdrawal.field "tokenIndex" = .ok v → v.holds → ∃ t, v = .str t

/-- The token index with a number. -/
def numbered (n : Nat) : Text := .ofChars (Hex.u32Text n)

/-- The token indexes that withdrawals from a place on get, in their order. -/
def indexes (issued place : Nat) (withdrawals : List Value) : List Text :=
  (withdrawals.zipIdx place).map fun e => (given? e.1).getD (numbered (issued + e.2))

/-- The token indexes of the withdrawals that come without one. -/
def assigned (issued place : Nat) (withdrawals : List Value) : List Text :=
  (withdrawals.zipIdx place).filterMap fun e =>
    if (given? e.1).isNone then some (numbered (issued + e.2)) else none

variable {issued place : Nat}

theorem given?_of_holds {withdrawal : Value} {t : Text}
    (hg : withdrawal.field "tokenIndex" = .ok (.str t)) (hholds : (Value.str t).holds) :
    given? withdrawal = some t := by
  rw [given?, hg]
  simpa [Value.holds, Scalar.holds] using hholds

theorem given?_of_not_holds {withdrawal v : Value} (hv : withdrawal.field "tokenIndex" = .ok v)
    (hholds : ¬v.holds) : given? withdrawal = none := by
  rw [given?, hv]
  split
  · rename_i t heq
    obtain rfl := Except.ok.inj heq
    rw [if_pos (by simpa [Value.holds, Scalar.holds] using hholds)]
  · rfl

theorem eq_of_writeU32 {n : Nat} {s : String} (h : Hex.writeU32 (.int n) = .ok s) :
    Text.ofString s = numbered n := by
  simp only [Hex.writeU32, Scalar.number?] at h
  split at h
  · cases h
  · obtain rfl := Except.ok.inj h
    exact Text.ofString_ofList _

theorem tokenIndex_eq {withdrawal v : Value} (htext : ComesWithText withdrawal)
    (h : tokenIndex (.int issued) place withdrawal = .ok v) :
    v = .str ((given? withdrawal).getD (numbered (issued + place))) := by
  obtain ⟨g, hg, h⟩ := bind_eq_ok.mp h
  by_cases hholds : g.holds
  · obtain ⟨t, rfl⟩ := htext g hg hholds
    rw [if_pos hholds] at h
    rw [given?_of_holds hg hholds, Option.getD_some]
    exact (Except.ok.inj h).symm
  · rw [if_neg hholds] at h
    obtain ⟨issued', hissued, h⟩ := bind_eq_ok.mp h
    obtain rfl := Except.ok.inj hissued
    obtain ⟨sum, hsum, h⟩ := bind_eq_ok.mp h
    obtain rfl : Scalar.int ((issued + place : Nat) : Int) = sum := Except.ok.inj hsum
    obtain ⟨s, hs, h⟩ := bind_eq_ok.mp h
    rw [given?_of_not_holds hg hholds, Option.getD_none, ← eq_of_writeU32 hs]
    exact (Except.ok.inj h).symm

theorem items_withIndexes {withdrawals indexed : List Value}
    (htexts : ∀ w ∈ withdrawals, ComesWithText w)
    (h : withIndexes (.int issued) place withdrawals = .ok indexed) :
    indexed.mapM (·.item "tokenIndex") = .ok ((indexes issued place withdrawals).map .str) := by
  induction withdrawals generalizing place indexed with
  | nil =>
    obtain rfl := Except.ok.inj h
    rfl
  | cons w rest ih =>
    obtain ⟨hw, hrest⟩ := List.forall_mem_cons.mp htexts
    obtain ⟨v, hv, h⟩ := bind_eq_ok.mp h
    obtain ⟨d, -, h⟩ := bind_eq_ok.mp h
    obtain ⟨more, hmore, h⟩ := bind_eq_ok.mp h
    obtain rfl := Except.ok.inj h
    rw [List.mapM_cons, Value.item_set_self, ok_bind, ih hrest hmore, tokenIndex_eq hw hv]
    rfl

/-- The indexes are those that are given and those that are assigned. -/
theorem perm_indexes (withdrawals : List Value) :
    (indexes issued place withdrawals).Perm
      (withdrawals.filterMap given? ++ assigned issued place withdrawals) := by
  induction withdrawals generalizing place with
  | nil => exact .nil
  | cons w rest ih =>
    have hnext := @ih (place + 1)
    rw [indexes] at hnext ⊢
    rw [assigned] at hnext ⊢
    rw [List.zipIdx_cons, List.map_cons, List.filterMap_cons, List.filterMap_cons]
    cases hgiven : given? w with
    | some t => simpa [hgiven] using hnext
    | none => simpa [hgiven] using (hnext.cons _).trans List.perm_middle.symm

theorem numbered_injective {m n : Nat} (h : numbered m = numbered n) : m = n :=
  Hex.u32Text_injective (Text.ofChars_inj.mp h)

/-- No number is used twice. -/
theorem nodup_assigned (withdrawals : List Value) : (assigned issued place withdrawals).Nodup := by
  have hplaces : (withdrawals.zipIdx place).Pairwise fun e e' => e.2 ≠ e'.2 := by
    have hrange : (List.range' place withdrawals.length).Nodup := List.nodup_range'
    rwa [← List.zipIdx_map_snd, List.Nodup, List.pairwise_map] at hrange
  refine List.pairwise_filterMap.mpr (hplaces.imp fun hne t ht t' ht' heq => hne ?_)
  have hnumber : ∀ {e : Value × Nat} {t : Text},
      (if (given? e.1).isNone then some (numbered (issued + e.2)) else none) = some t →
        numbered (issued + e.2) = t := by
    intro e t h
    split at h
    · exact Option.some.inj h
    · cases h
  have hsame := numbered_injective ((hnumber ht).trans (heq.trans (hnumber ht').symm))
  omega

/-- Where those that are given are distinct, all are, unless one that is given is assigned, too. -/
theorem nodup_indexes_iff {withdrawals : List Value} (h : (withdrawals.filterMap given?).Nodup) :
    (indexes issued place withdrawals).Nodup ↔
      ∀ t ∈ withdrawals.filterMap given?, t ∉ assigned issued place withdrawals := by
  rw [(perm_indexes withdrawals).nodup_iff, List.nodup_append']
  constructor
  · rintro ⟨-, -, hdisjoint⟩ t hgiven hassigned
    exact hdisjoint hgiven hassigned
  · intro hdisjoint
    exact ⟨h, nodup_assigned withdrawals, fun t hgiven hassigned => hdisjoint t hgiven hassigned⟩

/-- The withdrawals get their indexes, and the collection has issued so many tokens before. -/
def Assigns (network : Network) (s : Service) (cotaId : Value) (issued : Nat)
    (withdrawals indexed : List Value) : Prop :=
  ∃ w define w₁ w₂,
    (s.aggregator.define (.record [("cotaId", cotaId)])).exec network w = (.ok define, w₁) ∧
      define.field "issued" = .ok (.int issued) ∧
      (assignIndexes s cotaId (.list withdrawals)).exec network w = (.ok indexed, w₂)

variable {network : Network} {s : Service} {cotaId : Value} {withdrawals indexed : List Value}

theorem Assigns.withIndexes (h : Assigns network s cotaId issued withdrawals indexed) :
    withIndexes (.int issued) 0 withdrawals = .ok indexed := by
  obtain ⟨w, define, w₁, w₂, hdefine, hissued, hrun⟩ := h
  rw [assignIndexes, Run.exec_bind, hdefine] at hrun
  simp only [hissued] at hrun
  exact (Prod.mk.inj hrun).1

/-- **The indexes of a mint are distinct exactly if no index that a withdrawal comes with is the
number of a withdrawal without one.** Each is what the withdrawal comes with, or else its number. -/
theorem assignIndexes_nodup_iff (h : Assigns network s cotaId issued withdrawals indexed)
    (htexts : ∀ w ∈ withdrawals, ComesWithText w)
    (hdistinct : (withdrawals.filterMap given?).Nodup) :
    indexed.mapM (·.item "tokenIndex") = .ok ((indexes issued 0 withdrawals).map .str) ∧
      ((indexes issued 0 withdrawals).Nodup ↔
        ∀ t ∈ withdrawals.filterMap given?, t ∉ assigned issued 0 withdrawals) :=
  ⟨items_withIndexes htexts h.withIndexes, nodup_indexes_iff hdistinct⟩

/-- Servers and a service for a collection of which nothing is issued. -/
def sampleService : Service :=
  let server : Rpc.Client := ⟨.str "http://localhost:3030", .int 180⟩
  { collector := ⟨⟨server⟩, ⟨server⟩⟩, aggregator := ⟨server, server⟩, cotaTypeScript := []
    cotaCellDep := [], secp256k1Dep := none, fee := 1000 }

theorem assigns_sampleService (withdrawals : List Value) {indexed : List Value}
    (h : withIndexes (.int 0) 0 withdrawals = .ok indexed) :
    Assigns (oneCellNetwork plainOutput) sampleService (.str "0x01") 0 withdrawals indexed := by
  have hdefine : ∃ w₁, (sampleService.aggregator.define (.record [("cotaId", .str "0x01")])).exec
      (oneCellNetwork plainOutput) {} = (.ok (.record [("issued", .int 0)]), w₁) := by
    have hnetwork : oneCellNetwork plainOutput = fun _ _ => _ := funext fun _ => funext fun r =>
      Rpc.answering_eq (carried_oneCell carried_plainOutput r.method)
    rw [hnetwork]
    exact ⟨_, rfl⟩
  obtain ⟨w₁, hdefine⟩ := hdefine
  refine ⟨{}, _, w₁, w₁, hdefine, rfl, ?_⟩
  rw [assignIndexes, Run.exec_bind, hdefine]
  have hissued : (Value.record [("issued", .int 0)]).field "issued" = .ok (.int 0) := rfl
  simp only [hissued]
  exact congrArg (·, w₁) h

/-- A given index and two numbers. -/
theorem assignIndexes_nodup_iff_mixed :
    let withdrawals : List Value :=
      [.record [("tokenIndex", .str "0x00000005")], .record [], .record [("tokenIndex", .null)]]
    ∃ indexed, Assigns (oneCellNetwork plainOutput) sampleService (.str "0x01") 0 withdrawals
        indexed ∧
      indexed.mapM (·.item "tokenIndex")
        = .ok [.str "0x00000005", .str "0x00000001", .str "0x00000002"] ∧
      (indexes 0 0 withdrawals).Nodup := by
  intro withdrawals
  have hassigns := assigns_sampleService withdrawals rfl
  have htexts : ∀ w ∈ withdrawals, ComesWithText w := by
    simp only [withdrawals, List.forall_mem_cons]
    refine ⟨fun v hv _ => ⟨_, (Except.ok.inj hv).symm⟩, fun v hv hholds => ?_,
      fun v hv hholds => ?_, List.forall_mem_nil _⟩
    all_goals
      obtain rfl := Except.ok.inj hv
      cases hholds
  obtain ⟨hitems, hnodup⟩ := assignIndexes_nodup_iff hassigns htexts (by decide)
  exact ⟨_, hassigns, hitems, hnodup.mpr (by decide)⟩

/-- That the given indexes are distinct is not enough: the second token gets the number that the
first comes with. -/
theorem assignIndexes_repeats :
    ¬ ∀ (network : Network) (s : Service) (cotaId : Value) (issued : Nat)
      (withdrawals indexed : List Value) (texts : List Text),
      Assigns network s cotaId issued withdrawals indexed →
      (∀ w ∈ withdrawals, ComesWithText w) →
      (∀ t ∈ withdrawals.filterMap given?, Hex.Written 8 t) →
      (withdrawals.filterMap given?).Nodup →
      indexed.mapM (·.item "tokenIndex") = .ok (texts.map .str) → texts.Nodup := by
  intro hall
  have hassigns := assigns_sampleService
    [.record [("tokenIndex", .str "0x00000001")], .record []] rfl
  have hnodup := hall _ _ _ _ _ _ ["0x00000001", "0x00000001"] hassigns ?_ ?_ (by decide) rfl
  · exact absurd hnodup (by decide)
  · simp only [List.forall_mem_cons]
    refine ⟨fun v hv _ => ⟨_, (Except.ok.inj hv).symm⟩, fun v hv hholds => ?_,
      List.forall_mem_nil _⟩
    obtain rfl := Except.ok.inj hv
    cases hholds
  · exact List.forall_mem_singleton.mpr ⟨"00000001".toList, rfl, rfl, by simp⟩

end CellNft.Cota.Mint
