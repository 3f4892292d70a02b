import PacketClassifier.Pipeline.Classify
import PacketClassifier.Pipeline.Request
import PacketClassifier.Proofs.TableSteps

/-!
# Going through the tables

A request to several tables goes through a row of them, and so does a packet.  What every
table keeps that is asked or met on the way, is kept in the end, wherever the way stops.
-/

namespace PacketClassifier.Pipeline

variable {tables : List Table} {ledger : Ledger}

/-- What every step of a request to several tables keeps, the request keeps. -/
theorem onTables_induction {motive : List Table → Ledger → Prop} {chosen : Table → Bool}
    {carry : Table → Ledger → Except RequestError (Nat × Table × Ledger)}
    (steps : ∀ front table back ledger count left last, table ∈ tables →
      chosen table = true → carry table ledger = .ok (count, left, last) →
        motive (front ++ table :: back) ledger → motive (front ++ left :: back) last)
    (front : List Table) (holds : motive (front ++ tables) ledger) :
    motive (front ++ (onTables chosen carry tables ledger).2.1)
      (onTables chosen carry tables ledger).2.2 := by
  -- tables move to the front once they were asked, so the row is the same list throughout
  induction tables generalizing front ledger with
  | nil => exact holds
  | cons table rest ih =>
      have later : ∀ {first : Table} {between : Ledger},
          motive (front ++ first :: rest) between →
            motive (front ++ first :: (onTables chosen carry rest between).2.1)
              (onTables chosen carry rest between).2.2 := by
        intro first between holds
        rw [List.append_cons] at holds ⊢
        exact ih (fun front table back ledger count left last member =>
          steps front table back ledger count left last (.tail _ member)) _ holds
      rw [onTables]
      split
      · rename_i picked
        split
        · exact holds
        · rename_i count left last carried
          exact later (steps front table rest ledger count left last (.head _) picked
            carried holds)
      · exact later holds

/-- What every hit of a packet keeps, its way through the tables keeps. -/
theorem classifyFrom_induction {motive : Ledger → Prop} {packet : Packet}
    {thread : ThreadId} {bytes : UInt64}
    (hits : ∀ table ∈ tables, ∀ hit ledger, table.find? packet = some hit →
      motive ledger → motive (ledger.update hit (·.hit thread bytes)))
    (current : TableId) (holds : motive ledger) :
    motive (classifyFrom tables packet thread bytes current ledger).2 := by
  have counts : ∀ {current : TableId} {table : Table} {ledger last : Ledger}
      {answer : Option EntryRef},
      tables.find? (fun table => table.id = current) = some table →
        table.classify ledger packet thread bytes = (answer, last) →
          motive ledger → motive last := by
    intro current table ledger last answer listed counted holds
    rw [Table.classify_eq] at counted
    obtain rfl := congrArg Prod.snd counted
    cases found : table.find? packet with
    | none => exact holds
    | some hit => exact hits table (List.mem_of_find?_eq_some listed) hit ledger found holds
  fun_induction classifyFrom tables packet thread bytes current ledger with
  | case1 current ledger missing => exact holds
  | case2 current ledger table listed last missed => exact counts listed missed holds
  | case3 current ledger table listed hit last counted final =>
      exact counts listed counted holds
  | case4 current ledger table listed hit last counted next goes later others after
      counted' ih =>
      rw [counted'] at ih
      exact ih (counts listed counted holds)
  | case5 current ledger table listed hit last counted next goes back =>
      exact counts listed counted holds

end PacketClassifier.Pipeline
