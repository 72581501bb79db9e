/-
CellNft.Proofs.Printing — what the programs print can be read.

Minting and transferring print the signed transaction on a line of its own before they hand it in,
and the query prints its report. A flow hands in nothing but what it has printed
(`Course.sendsPrinted`): up to the key it only asks, and what comes behind the printed line sends
that transaction or polls for it.

`write_readsBack`: a value whose numbers are short enough is written, and what is read of the text is
the value. What is read of the line of a flow is what was signed, and in the form of nodes it is what
was handed in. That is so whatever the settings, the accounts and the replies. The transaction must
be one that a text can stand for; signing does not change whether it is (`Json.Representable.sign`).

`not_write_readsBack`: a number that is too long is not written at all, and a flow can hand in a key
of two halves of a surrogate pair, which are read as one character.
-/
import CellNft.Command
import CellNft.Proofs.Abort
import CellNft.Proofs.JsonText
import CellNft.Proofs.Progress
import CellNft.Proofs.TokenIndexes

namespace CellNft

open Outcome

/-- Signing writes hex into a transaction, and nothing else. -/
theorem Json.Representable.sign {most : Option Nat} {tx key signed : Value}
    (h : Json.Representable most tx) (hsigned : Signing.sign tx key = .ok signed) :
    Json.Representable most signed := by
  obtain ⟨fields, _, _, bs, rfl, -, -, -, -, rfl⟩ := Signing.sign_eq_ok.mp hsigned
  cases h with
  | dict distinct keys each =>
    refine .dict (distinct.set _ _) (fun e he => ?_) (fun e he => ?_)
    · rcases Dict.mem_set he with hmem | ⟨-, hkey | ⟨-, e', hmem, hkey⟩⟩
      · exact keys e hmem
      · exact ⟨_, hkey, Text.whole_ofChars _⟩
      · exact hkey ▸ keys e' hmem
    · rcases Dict.mem_set he with hmem | ⟨hvalue, -⟩
      · exact each e hmem
      · rw [hvalue]
        exact .list (List.forall_mem_map.mpr fun _ _ => .string _)

/-- A value is written if its numbers are short enough, and then it is what is read of the text. Else
writing fails. -/
theorem Json.Representable.written {layout : Json.Layout} (hlayout : layout.Blank) {v : Value}
    (h : Json.Representable none v) :
    (Json.Representable (some Integer.mostDigits) v → ∃ t, Json.write layout v = .ok t ∧
      ∀ most, Json.TakesWritten most → Json.parseWithin most t = .ok v) ∧
    (¬Json.Representable (some Integer.mostDigits) v →
      Json.write layout v = .error .unwritable) := by
  rw [Json.representable_iff_carried h]
  exact ⟨fun hcarried => ⟨_, Json.write_eq_ok.mpr ⟨hcarried, rfl⟩, fun most hmost =>
    Json.parseWithin_text hlayout (h.of_carried hcarried hmost)⟩, h.write_eq_error⟩

namespace Cota

section

variable {s : Service} {signed tx key lock : Value} {c before : List Act}
  {out : Except Fault Value} {fixed waiting : Bool}

/-! ## What is handed in can be read -/

theorem method_ne_of_sentIn (h : sentIn c = 0) :
    ∀ e ∈ exchangesOf c, e.request.method ≠ .str "send_transaction" := by
  intro e he hmethod
  have hcalls : e.calls "send_transaction" = true := by
    rw [Exchange.calls_of_method hmethod]
    decide
  exact List.countP_eq_zero.mp h e he hcalls

/-- What is handed in is the transaction, signed and printed. What is read of the line is what was
signed, and in the form of nodes it is what was handed in, if a text can stand for it. -/
def SendsPrinted (tx key : Value) (c : List Act) : Prop :=
  ∀ e ∈ exchangesOf c, e.request.method = .str "send_transaction" →
    ∃ signed wire, Signing.sign tx key = .ok signed ∧ printsOf c = [shown signed] ∧
      Wire.transaction signed = .ok wire ∧ e.request.params = .list [wire, .str "passthrough"] ∧
      (Json.Representable none signed → ∀ most, Json.TakesWritten most →
        Json.parseWithin most (shown signed) = .ok signed ∧
        (do Wire.transaction (← Json.parseWithin most (shown signed))) = .ok wire)

namespace SendsPrinted

theorem of_sentIn (h : sentIn c = 0) : SendsPrinted tx key c :=
  fun e he hmethod => absurd hmethod (method_ne_of_sentIn h e he)

/-- The line comes before the exchanges that it is about. -/
theorem of_handsIn (hsigned : Signing.sign tx key = .ok signed) (carried : Json.Carried signed)
    (h : HandsIn signed c ∧ printsOf c = []) :
    SendsPrinted tx key (.print (shown signed) :: c) := by
  obtain ⟨hhands, hprints⟩ := h
  intro e he hmethod
  obtain ⟨wire, hwire, hparams⟩ := hhands e he hmethod
  refine ⟨signed, wire, hsigned, congrArg _ hprints, hwire, hparams, fun h most hmost => ?_⟩
  have hread : Json.parseWithin most (shown signed) = .ok signed :=
    Json.parseWithin_line Json.blank_compact (h.of_carried carried hmost)
  exact ⟨hread, by rw [hread, ok_bind, hwire]⟩

/-- Acts that hand in nothing and print nothing may come first. -/
theorem after (h : SendsPrinted tx key c) (hsent : sentIn before = 0)
    (hprints : printsOf before = []) : SendsPrinted tx key (before ++ c) := by
  intro e he hmethod
  rw [exchangesOf_append] at he
  rcases List.mem_append.mp he with he | he
  · exact absurd hmethod (method_ne_of_sentIn hsent e he)
  · rw [printsOf_append, hprints, List.nil_append]
    exact h e he hmethod

end SendsPrinted

theorem Finishes.sendsPrinted (h : Finishes s tx key lock waiting c out) :
    SendsPrinted tx key c := by
  cases h with
  | locked | unsigned | unprinted => exact .of_sentIn rfl
  | unsent _ sign carried sends => exact .of_handsIn sign carried sends.handsIn
  | sent sign carried sends => exact .of_handsIn sign carried sends.handsIn
  | unsettled sign carried sends waits =>
    exact .of_handsIn sign carried (sends.handsIn_waits waits)
  | settled sign carried sends waits => exact .of_handsIn sign carried (sends.handsIn_waits waits)

theorem Submits.exists_sendsPrinted {built : Value}
    (h : Submits s built key lock fixed waiting c out) : ∃ tx, SendsPrinted tx key c := by
  have hplan : Preparatory (depPlan fixed) := by cases fixed <;> decide
  cases h with
  | undep follows => exact ⟨built, .of_sentIn (follows.sentIn_eq hplan)⟩
  | @dep _ _ _ tx _ follows _ _ finishes =>
    exact ⟨tx, finishes.sendsPrinted.after (follows.sentIn_eq hplan) follows.printsOf_eq_nil⟩

/-- A flow hands in nothing, or what it has signed with the key of the account and printed. -/
def FlowSendsPrinted (account : Value) (c : List Act) : Prop :=
  sentIn c = 0 ∨ ∃ tx key, account.item "private_key" = .ok key ∧ SendsPrinted tx key c

theorem Course.sendsPrinted {plan : List Text} {config account : Value} (hplan : Preparatory plan)
    (h : Course plan config account fixed waiting c out) : FlowSendsPrinted account c := by
  cases h with
  | unloaded | unread => exact .inl rfl
  | unbuilt follows => exact .inl (follows.sentIn_eq hplan)
  | keyless follows => exact .inl (follows.sentIn_eq hplan)
  | built _ follows _ held submits =>
    obtain ⟨tx, hsends⟩ := submits.exists_sendsPrinted
    exact .inr ⟨tx, _, held, hsends.after (follows.sentIn_eq hplan) follows.printsOf_eq_nil⟩

end

/-! ## The query -/

/-- A report is printed, and it is what is read of the lines; or the query fails and prints
nothing. -/
def PrintsReport (c : List Act) (out : Except Fault Unit) : Prop :=
  (printsOf c = [] ∧ ∃ fault, out = .error fault) ∨
    ∃ report, out = .ok () ∧ printsOf c = [Json.text .indented report ++ "\n"] ∧
      (Json.Representable none report → ∀ most, Json.TakesWritten most →
        Json.parseWithin most (Json.text .indented report ++ "\n" : String) = .ok report)

theorem Account.Course.printsOf_eq_nil {plan : List Text} {c : List Act} {out : Except Fault Value}
    (h : Account.Course plan c out) : printsOf c = [] := by
  cases h with
  | unasked => rfl
  | failed follows => exact follows.printsOf_eq_nil
  | asked follows => exact follows.printsOf_eq_nil

theorem query_printsReport {network : Network} {config accounts : Value} :
    (Command.flow config accounts .query).Ends network PrintsReport := by
  refine Run.Ends.compute (fun address _ => ?_) fun fault _ => .inl ⟨rfl, fault, rfl⟩
  refine queryAccount_course.bind (fun c report h => ?_) fun c fault h =>
    .inl ⟨h.printsOf_eq_nil, fault, rfl⟩
  refine Run.Ends.compute (fun text htext => ?_) fun fault _ =>
    .inl ⟨by rw [List.append_nil, h.printsOf_eq_nil], fault, rfl⟩
  obtain ⟨hcarried, rfl⟩ := Json.write_eq_ok.mp htext
  refine (Run.Ends.emit _).weaken ?_
  rintro _ _ ⟨rfl, _, rfl⟩
  right
  refine ⟨report, rfl, ?_, fun h most hmost =>
    Json.parseWithin_line Json.blank_indented (h.of_carried hcarried hmost)⟩
  rw [printsOf_append, h.printsOf_eq_nil]
  rfl

/-! ## Together -/

/-- **What is printed reads back as what was signed and handed in.** The reader may take numbers of
any size, or only numbers of so many digits as are written at most. -/
theorem write_readsBack :
    (∀ v, Json.Representable none v → ∀ layout ∈ [Json.Layout.compact, .indented],
      (Json.Representable (some Integer.mostDigits) v → ∃ t, Json.write layout v = .ok t ∧
        ∀ most, Json.TakesWritten most → Json.parseWithin most t = .ok v) ∧
      (¬Json.Representable (some Integer.mostDigits) v →
        Json.write layout v = .error .unwritable)) ∧
    ∀ network,
      (∀ s tx key lock waiting, (Submission.finish s tx key lock waiting).Ends network fun c _ =>
        SendsPrinted tx key c) ∧
      (∀ config account fixed waiting,
        (∀ cotaId withdrawals,
          (mintNft config account cotaId withdrawals fixed waiting).Ends network fun c _ =>
            FlowSendsPrinted account c) ∧
        ∀ withdrawalAddress transfers,
          (transferNft config account withdrawalAddress transfers fixed waiting).Ends network
            fun c _ => FlowSendsPrinted account c) ∧
      ∀ config accounts, (Command.flow config accounts .query).Ends network PrintsReport := by
  refine ⟨fun v h => ?_, fun _ => ⟨fun _ _ _ _ _ => finish_ends.weaken fun _ _ h => h.sendsPrinted,
    fun _ _ _ _ => ⟨fun _ _ => mintNft_course.weaken fun _ _ h => h.sendsPrinted (by decide),
      fun _ _ => transferNft_course.weaken fun _ _ h => h.sendsPrinted (by decide)⟩,
    fun _ _ => query_printsReport⟩⟩
  simp only [List.forall_mem_cons]
  exact ⟨h.written Json.blank_compact, h.written Json.blank_indented, List.forall_mem_nil _⟩

/-! ## Two texts -/

/-- A value of every kind, with characters of every kind. -/
def nested : Value := .record [
  ("a \"quoted\" key\\", .str "\x08\t\n\x0c\r\x00 / é \uffff 𝄞"),
  ("", .list [.list [], .record [], .null, .bool true, .bool false]),
  ("numbers", .list [.int 0, .int (-7), .int (10 ^ 40)])]

theorem representable_nested {most : Option Nat} (hmost : Json.TakesWritten most) :
    Json.Representable most nested := by
  have hint : ∀ n : Int, n.natAbs < Nat.pow 10 41 → Json.Representable most (.int n) := by
    refine fun n hn => .int fun k hk => Nat.le_trans ?_ (hmost k hk)
    exact Integer.exceeds_eq_false_iff.mp (Integer.exceeds_eq_false hn (by decide))
  refine .record (by simp) ?_
  simp only [List.forall_mem_cons]
  refine ⟨.string _, .list ?_, .list ?_, List.forall_mem_nil _⟩
  · simp only [List.forall_mem_cons]
    exact ⟨.list (List.forall_mem_nil _), .record List.nodup_nil (List.forall_mem_nil _), .null,
      .bool true, .bool false, List.forall_mem_nil _⟩
  · simp only [List.forall_mem_cons]
    exact ⟨hint 0 (by decide), hint (-7) (by decide), hint (10 ^ 40) (by decide),
      List.forall_mem_nil _⟩

theorem representable_annotated : Json.Representable none Wire.annotated := by
  have hpoint : Json.Representable none (.record [
      ("txHash", .str (Hex.encode (List.replicate 32 7))), ("index", .str "0x0")]) := by
    refine .record (by simp) ?_
    simp only [List.forall_mem_cons]
    exact ⟨.string _, .string _, List.forall_mem_nil _⟩
  refine .record (by simp) ?_
  simp only [List.forall_mem_cons]
  refine ⟨.string _, .list ?_, .list (List.forall_mem_nil _), .list (List.forall_mem_nil _),
    .list (List.forall_mem_nil _), .list (List.forall_mem_nil _), .list ?_, .record (by simp) ?_,
    List.forall_mem_nil _⟩
  · simp only [List.forall_mem_cons]
    refine ⟨.record (by simp) ?_, .record (by simp) ?_, List.forall_mem_nil _⟩
    all_goals simp only [List.forall_mem_cons]
    · exact ⟨hpoint, .string _, List.forall_mem_nil _⟩
    · exact ⟨.string _, hpoint, List.forall_mem_nil _⟩
  · refine List.forall_mem_singleton.mpr (.record (by simp) ?_)
    exact List.forall_mem_singleton.mpr (.string _)
  · simp only [List.forall_mem_cons]
    exact ⟨.string _, .list (List.forall_mem_singleton.mpr (.string _)), List.forall_mem_nil _⟩

/-- Signs and sends with the key 1. -/
def sampleFinish : Run Value :=
  Submission.finish Mint.sampleService Wire.annotated (.str (Hex.encode (Bytes.ofNatBE 32 1)))
    (.record [("args", .str "0x75178f34549c5fe9cd1a0c57aebd01e7ddf9249e")]) false

theorem observed_sampleFinish :
    observed (sampleFinish.exec (oneCellNetwork plainOutput) {}) = (true, some (true, false)) := by
  decide +kernel

/-- Nested values, a transaction that is signed and sent, and a mint. -/
theorem write_readsBack_nested :
    (∃ t, Json.write .compact nested = .ok t ∧ Json.parse t = .ok nested) ∧
    (∃ t, Json.write .indented nested = .ok t ∧ Json.parse t = .ok nested) ∧
    (∃ c signed wire, c = acts (oneCellNetwork plainOutput) []
        (sampleFinish.exec (oneCellNetwork plainOutput) {}).2.trace ∧
      printsOf c = [shown signed] ∧ Json.parse (shown signed) = .ok signed ∧
      (do Wire.transaction (← Json.parse (shown signed))) = .ok wire ∧
      ∃ e ∈ exchangesOf c, e.request.method = .str "send_transaction" ∧
        e.request.params = .list [wire, .str "passthrough"]) ∧
    FlowSendsPrinted sampleAccount (acts (oneCellNetwork plainOutput) []
      (sampleMint.exec (oneCellNetwork plainOutput) {}).2.trace) := by
  obtain ⟨hvalues, hruns⟩ := write_readsBack
  have htakes : Json.TakesWritten (some Integer.mostDigits) := fun k hk =>
    Nat.le_of_eq (Option.some.inj hk)
  have hnested : ∀ layout ∈ [Json.Layout.compact, .indented],
      ∃ t, Json.write layout nested = .ok t ∧ Json.parse t = .ok nested := by
    intro layout hlayout
    obtain ⟨t, ht, hread⟩ := (hvalues nested (representable_nested nofun) layout hlayout).1
      (representable_nested htakes)
    exact ⟨t, ht, hread _ htakes⟩
  obtain ⟨hfinish, hflows, -⟩ := hruns (oneCellNetwork plainOutput)
  have hmint : sampleMint.Ends (oneCellNetwork plainOutput) _ :=
    (hflows sampleConfig sampleAccount true false).1 (.str "0x01") (.list [])
  have hsends : sampleFinish.Ends (oneCellNetwork plainOutput) _ := hfinish _ _ _ _ _
  refine ⟨hnested _ (by simp), hnested _ (by simp), ?_, hmint.exec⟩
  -- The request that hands the transaction in is one of the exchanges of the run.
  obtain ⟨-, wire', hwire', -⟩ := handedIn_of_observed observed_sampleFinish
  obtain ⟨r, hr, hmethod, -⟩ := exists_of_handedIn hwire'
  have hexchanges := exchangesOf_acts (oneCellNetwork plainOutput) []
    (sampleFinish.exec (oneCellNetwork plainOutput) {}).2.trace
  have hrequests := map_request_exchanges (oneCellNetwork plainOutput) []
    (sampleFinish.exec (oneCellNetwork plainOutput) {}).2.requests
  rw [requestsOf_trace] at hexchanges
  rw [← hrequests, ← hexchanges] at hr
  obtain ⟨e, he, rfl⟩ := List.mem_map.mp hr
  obtain ⟨signed, wire, hsigned, hprints, -, hparams, hreads⟩ := hsends.exec e he hmethod
  obtain ⟨hread, hwire⟩ := hreads (representable_annotated.sign hsigned) _ htakes
  exact ⟨_, signed, wire, rfl, hprints, hread, hwire, e, he, hmethod, hparams⟩

/-- An output with a key that holds both halves of a surrogate pair, apart. In camel case they are
next to each other. -/
def halvedOutput : Value := .dict [
  (.str "capacity", .str "0x4a817c800"), (.str "lock", sampleLock),
  (.str ⟨[.half 1, .char '_', .half 0x400]⟩, .str "0x")]

/-- The keys of the first output of a transaction that is handed in. -/
def outputKeys (wire : Value) : Option (List Scalar) :=
  let keys : Except Fault (List Scalar) := do
    let output ← (← wire.item "outputs").first
    return (← output.entries).map (·.1)
  keys.toOption

/-- The keys that are read of a line that shows one key, in the form of nodes. -/
def rereadKeys (key : Text) : Option (List Scalar) :=
  let keys : Except Fault (List Scalar) := do
    let shown := Json.writeAt .compact 0 (.dict [(.str key, .null)])
    let read ← (← Json.parse (.ofChars shown)).snakeKeys
    return (← read.entries).map (·.1)
  keys.toOption

/-- A value of one number that is not written, and a mint that hands in a key other than the one that
is read of the line. -/
theorem not_write_readsBack :
    (Json.Representable none (.int (Nat.pow 10 Integer.mostDigits)) ∧
      ∀ layout, Json.write layout (.int (Nat.pow 10 Integer.mostDigits)) = .error .unwritable) ∧
    (handedIn (sampleMint.exec (oneCellNetwork halvedOutput) {}).2).bind outputKeys
      = some [.str "capacity", .str "lock", .str ⟨[.half 1, .half 0x400]⟩] ∧
    rereadKeys ⟨[.half 1, .half 0x400]⟩ = some [.str ⟨[.char (Char.ofNat 0x10428)]⟩] := by
  have hlong : Integer.exceeds (Nat.pow 10 Integer.mostDigits) = true :=
    Integer.exceeds_eq_true (Nat.le_of_eq (Int.natAbs_natCast _).symm) (Nat.le_refl _)
  refine ⟨⟨.int nofun, fun layout => Json.write_eq_error.mpr ?_⟩, by decide +kernel,
    by decide +kernel⟩
  rw [Value.int, Json.refusal?, Json.scalarRefusal?, if_pos hlong]

end Cota
end CellNft
