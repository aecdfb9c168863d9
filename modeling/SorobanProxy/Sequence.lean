import SorobanProxy.Reference

/-! The sequence number of a transaction: the one of its account's entry, plus one. The sum
is on `i64` and not checked, unlike the sum of the fee. -/
namespace SorobanProxy

open Library
open Library.Prog (liftExcept)

/-- The sequence number of the transaction in an envelope. -/
def TransactionEnvelope.seqNum : TransactionEnvelope → Option Int64
  | .tx v1 => some v1.tx.seqNum
  | _ => none

variable {p : Platform} {seqNum : Int64}

/-- What is left of a fetch returns: an error, or the integer after the account's number,
and a transaction that is built from it comes after the account's last one. -/
structure Advances (p : Platform) (seqNum : Int64) (rest : Async (Result Int64)) : Prop where
  returns : ∃ result, rest = .pure result
  next : ∀ n, rest = .pure (.ok n) → n.toInt = seqNum.toInt + 1
  later : ∀ n, rest = .pure (.ok n) → ∀ sourceAccount contractId functionName args envelope,
    buildUnsignedInvokeTx p sourceAccount n contractId functionName args = .ok envelope →
    ∃ built, envelope.seqNum = some built ∧ seqNum.toInt < built.toInt

theorem toInt_add_one_iff : (seqNum + 1).toInt = seqNum.toInt + 1 ↔ seqNum ≠ Int64.maxValue := by
  have one : (1 : Int64).toInt = 1 := by decide
  have bound := seqNum.toInt_lt
  have least := seqNum.le_toInt
  rw [ne_eq,← Int64.toInt_inj,Int64.toInt_maxValue,Int64.toInt_add,one]
  constructor
  · intro exact last
    rw [last] at exact
    revert exact
    decide
  · intro small
    apply Int.bmod_eq_of_le <;> omega

/-- After the reply with an account's entry there is nothing but the sum. -/
theorem fetchNextSequenceNumber_rest {sourceAccount : String} {params : Value} {reply : HttpReply}
    {rest : Async (Result Int64)} (run : Prog.Steps (fetchNextSequenceNumber p sourceAccount).run
      [⟨.post "getLedgerEntries" params,reply⟩] rest)
    (entry : EntryData p reply (.account seqNum)) :
    rest = (liftExcept (nextSequence p seqNum) : AsyncResult String Int64).run := by
  obtain ⟨pk,_,run⟩ := run.of_ofResult_bind
  obtain ⟨keyB64,_,run⟩ := run.of_ofResult_bind
  cases run.op_eq (.cons_bind (runs_firstLedgerEntry entry) .refl)
  have left := run.of_cons_bind (runs_firstLedgerEntry entry)
  exact Prog.steps_nil_iff.mp left

/-- The fetch does what it is for with every sequence number but the last one of `i64`: there
it panics where overflow is checked, and wraps around where it is not. -/
theorem fetchNextSequenceNumber_advances_iff {sourceAccount : String} {params : Value} {reply : HttpReply}
    {rest : Async (Result Int64)} (run : Prog.Steps (fetchNextSequenceNumber p sourceAccount).run
      [⟨.post "getLedgerEntries" params,reply⟩] rest)
    (entry : EntryData p reply (.account seqNum)) : Advances p seqNum rest ↔ seqNum ≠ Int64.maxValue := by
  obtain rfl := fetchNextSequenceNumber_rest run entry
  by_cases overflow : p.overflowChecks ∧ seqNum = Int64.maxValue
  · rw [nextSequence,if_pos overflow]
    refine iff_of_false ?_ (not_not.mpr overflow.2)
    rintro ⟨⟨result,returned⟩,_,_⟩
    cases returned
  · rw [nextSequence,if_neg overflow]
    constructor
    · intro advances
      exact toInt_add_one_iff.mp (advances.next _ rfl)
    · intro small
      have sum := toInt_add_one_iff.mpr small
      constructor
      · exact ⟨_,rfl⟩
      · intro n returned
        cases returned
        exact sum
      · intro n returned sourceAccount contractId functionName args envelope built
        cases returned
        obtain ⟨call,_,number,_,_,_,_,rfl⟩ := buildUnsignedInvokeTx_eq_ok_iff.mp built
        refine ⟨call.seqNum,rfl,?_⟩
        rw [number,sum]
        omega

namespace Reference

theorem fetchNextSequenceNumber_advances_iff_account :
    Advances platform 41 (.pure (.ok 42)) ↔ (41 : Int64) ≠ Int64.maxValue := by
  have requested := (preparation_valid false).requested
  apply fetchNextSequenceNumber_advances_iff
  · exact runs_fetchNextSequenceNumber requested.source requested.accountKey requested.seqNum
  · exact account_known

/-- The entry of the account with the last sequence number. -/
def lastEntryXdr : String :=
  "AAAAAAAAAACKiOPddAnxlf1S2y08ul1yymcJvx2UEhvzdIgBtA9vXAAAAAA7msoAf/////////8AAAAAAAAAAAAAAAAAAAAAAQ" ++
  "AAAAAAAAAAAAAA"

/-- The service at a time when the account has used the last sequence number. -/
def lastPlatform : Platform := { platform with
  responseFromStr text :=
    if text = entriesText lastEntryXdr then .ok ⟨entries lastEntryXdr,none⟩ else responseFromStr text
  ledgerEntryFromBase64 b64 :=
    if b64 = lastEntryXdr then .ok (.account Int64.maxValue) else ledgerEntryFromBase64 b64 }

theorem last_known : EntryData lastPlatform (.response 200 (entriesText lastEntryXdr)) (.account Int64.maxValue) := by
  apply entryData <;> simp only [lastPlatform, if_pos]

/-- The number after the last one is the least one. -/
theorem sequence_wraps : ¬∀ (p : Platform) (sourceAccount : String) (params : Value) (reply : HttpReply)
    (seqNum : Int64) (rest : Async (Result Int64)), Prog.Steps (fetchNextSequenceNumber p sourceAccount).run
      [⟨.post "getLedgerEntries" params,reply⟩] rest →
    EntryData p reply (.account seqNum) → Advances p seqNum rest := by
  intro always
  have wrapped : Prog.Runs (fetchNextSequenceNumber lastPlatform sourceAccount).run
      [⟨.post "getLedgerEntries" (RpcClient.keysParams [accountKeyXdr]),.response 200 (entriesText lastEntryXdr)⟩]
      (.ok Int64.minValue) :=
    runs_fetchNextSequenceNumber rfl rfl ⟨Int64.maxValue,last_known,by decide,by decide⟩
  have advances := always _ _ _ _ _ _ wrapped last_known
  have next := advances.next Int64.minValue rfl
  revert next
  decide

end Reference
end SorobanProxy
