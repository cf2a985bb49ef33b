import NettyCluster.Server.NodeRouter

/-
  The load that a node counts and writes to the registry.

  The counter is changed first and its new value is written
  afterwards. A write that fails, or whose answer is lost,
  makes the call return false.

  Main declarations:
    * `NettyWorker.incBalance`, `NettyWorker.decrBalance`
    * `NettyWorker.run`
    * `NettyWorker.CountsSuccesses`
    * `NettyWorker.countsSuccesses_iff`
-/

------------------------------------------------------------
-- Counters of 32 Bits
------------------------------------------------------------

namespace NettyCluster

/- The numbers that a counter can hold. -/
def IsInt (n : Int) : Prop :=
  -2 ^ 31 ≤ n ∧ n < 2 ^ 31

instance (n : Int) : Decidable (IsInt n) :=
  inferInstanceAs (Decidable (_ ∧ _))

/- A counter holds a sum exactly when it is in range. -/
theorem toInt_add_ofInt_iff
    (n : Int32)
    (m : Int) :
    (n + Int32.ofInt m).toInt = n.toInt + m ↔
      IsInt (n.toInt + m) := by
  have hSum :
      n + Int32.ofInt m = Int32.ofInt (n.toInt + m) := by
    rw [Int32.ofInt_add, Int32.ofInt_toInt]
  constructor
  · intro hSame
    rw [← hSame]
    exact ⟨Int32.le_toInt _, Int32.toInt_lt _⟩
  · rintro ⟨hLow, hHigh⟩
    rw [hSum, Int32.toInt_ofInt_of_le hLow hHigh]

end NettyCluster

------------------------------------------------------------
-- Calls
------------------------------------------------------------

namespace NettyCluster

/-
  A node's own data, and the payload of its child of the
  registry, if there is one.
-/
structure NettyWorker where
  wsNode : WsNode
  znode : Option String
deriving DecidableEq

/- How a write to the registry ends. -/
inductive SetData where
| stored
| answerLost
| failed
deriving DecidableEq, Repr

namespace NettyWorker

/-
  Change the counter, then write the node. The loop around
  both is left at its first turn.
-/
def changeBalance
    (change : WsNode → WsNode)
    (write : SetData)
    (worker : NettyWorker) : NettyWorker × Bool :=
  let wsNode := change worker.wsNode
  match write with
  | .stored => (⟨wsNode, some wsNode.toJson.text⟩, true)
  | .answerLost => (⟨wsNode, some wsNode.toJson.text⟩, false)
  | .failed => (⟨wsNode, worker.znode⟩, false)

/- A user logged in. -/
def incBalance :
    SetData → NettyWorker → NettyWorker × Bool :=
  changeBalance WsNode.incrementBalance

/- A user went offline. -/
def decrBalance :
    SetData → NettyWorker → NettyWorker × Bool :=
  changeBalance WsNode.decrementBalance

/- Which of the two operations is called. -/
inductive Operation where
| incBalance
| decrBalance
deriving DecidableEq, Repr

/- A call, and how its write to the registry ends. -/
structure Call where
  operation : Operation
  write : SetData
deriving DecidableEq, Repr

/- What the call is meant to change the counter by. -/
def Call.change (c : Call) : Int :=
  match c.operation with
  | .incBalance => 1
  | .decrBalance => -1

/- The worker after a call, and what the call returned. -/
def call
    (worker : NettyWorker)
    (c : Call) : NettyWorker × Bool :=
  match c.operation with
  | .incBalance => incBalance c.write worker
  | .decrBalance => decrBalance c.write worker

/- The worker after some calls. -/
def run
    (worker : NettyWorker)
    (calls : List Call) : NettyWorker :=
  calls.foldl (fun worker c => (worker.call c).1) worker

/- The calls of an operation that returned true. -/
def returnedTrue
    (operation : Operation)
    (worker : NettyWorker) : List Call → Nat
| [] => 0
| c :: calls =>
    returnedTrue operation (worker.call c).1 calls +
      if c.operation = operation ∧ (worker.call c).2 then 1
      else 0

/-
  The counter counts the calls that returned true, a call
  that returned false left it as it was, and one that
  returned true also wrote it to the registry.
-/
structure CountsSuccesses
    (worker : NettyWorker)
    (calls : List Call) : Prop where
  total :
    (run worker calls).wsNode.balance.toInt =
      worker.wsNode.balance.toInt +
        returnedTrue .incBalance worker calls -
        returnedTrue .decrBalance worker calls
  unchanged :
    ∀ before c after, calls = before ++ c :: after →
      ((run worker before).call c).2 = false →
        ((run worker before).call c).1.wsNode.balance =
          (run worker before).wsNode.balance
  written :
    ∀ before c after, calls = before ++ c :: after →
      ((run worker before).call c).2 = true →
        ∃ payload node,
          ((run worker before).call c).1.znode =
            some payload ∧
          JsonUtil.jsonBytes2Object payload = some node ∧
          node.balance =
            ((run worker before).call c).1.wsNode.balance

/- What calls are meant to change the counter by in all. -/
def net (calls : List Call) : Int :=
  (calls.map Call.change).sum

end NettyWorker

end NettyCluster

------------------------------------------------------------
-- Counting
------------------------------------------------------------

namespace NettyCluster

namespace NettyWorker

variable (worker : NettyWorker)

theorem change_eq (c : Call) :
    c.change = 1 ∨ c.change = -1 := by
  rcases c with ⟨_ | _, write⟩
  · exact .inl rfl
  · exact .inr rfl

/- Whether a call returns true depends on its write. -/
theorem call_snd (c : Call) :
    (worker.call c).2 = decide (c.write = .stored) := by
  rcases c with ⟨_ | _, _ | _ | _⟩ <;> rfl

/- A call changes the counter whatever it returns. -/
theorem call_balance (c : Call) :
    (worker.call c).1.wsNode.balance =
      worker.wsNode.balance + Int32.ofInt c.change := by
  rcases c with ⟨operation, write⟩
  cases operation with
  | incBalance => cases write <;> rfl
  | decrBalance =>
      cases write <;> exact Int32.sub_eq_add_neg _ 1

/- A counter that goes up or down is not as before. -/
theorem call_balance_ne (c : Call) :
    (worker.call c).1.wsNode.balance ≠
      worker.wsNode.balance := by
  rw [call_balance, ne_eq, Int32.add_eq_left]
  rcases change_eq c with hChange | hChange <;>
    rw [hChange] <;> decide

/- A call that returns true stores the node it leaves. -/
theorem call_znode
    {c : Call}
    (hStored : c.write = .stored) :
    (worker.call c).1.znode =
      some (worker.call c).1.wsNode.toJson.text := by
  rcases c with ⟨_ | _, write⟩ <;> cases hStored <;> rfl

/- The counter after calls counts all of them. -/
theorem run_balance (calls : List Call) :
    (run worker calls).wsNode.balance =
      worker.wsNode.balance + Int32.ofInt (net calls) := by
  induction calls generalizing worker with
  | nil => exact (Int32.add_zero _).symm
  | cons c calls ih =>
      have hRest := ih (worker.call c).1
      rw [call_balance] at hRest
      rw [net, List.map_cons, List.sum_cons,
        Int32.ofInt_add, ← Int32.add_assoc]
      exact hRest

/- If all writes succeed, all calls return true. -/
theorem returnedTrue_net
    {calls : List Call}
    (hStored : ∀ c ∈ calls, c.write = .stored) :
    (returnedTrue .incBalance worker calls : Int) -
        returnedTrue .decrBalance worker calls =
      net calls := by
  induction calls generalizing worker with
  | nil => rfl
  | cons c calls ih =>
      rw [List.forall_mem_cons] at hStored
      have hRest := ih (worker.call c).1 hStored.2
      have hTrue : (worker.call c).2 = true := by
        rw [call_snd, hStored.1]
        rfl
      rw [net, List.map_cons, List.sum_cons]
      rw [net] at hRest
      rcases c with ⟨_ | _, write⟩ <;>
        simp [returnedTrue, hTrue, Call.change] <;>
        omega

/-
  The counter counts successes exactly when every write to
  the registry succeeds and the count stays in range.
-/
theorem countsSuccesses_iff
    (calls : List Call) :
    CountsSuccesses worker calls ↔
      (∀ c ∈ calls, c.write = .stored) ∧
        IsInt
          (worker.wsNode.balance.toInt + net calls) := by
  have hRun := toInt_add_ofInt_iff worker.wsNode.balance
    (net calls)
  rw [← run_balance] at hRun
  constructor
  · intro hCounts
    have hStored : ∀ c ∈ calls, c.write = .stored := by
      intro c hMem
      by_contra hFailed
      rcases List.append_of_mem hMem with
        ⟨before, after, hCalls⟩
      have hSame := hCounts.unchanged before c after hCalls
        (by rw [call_snd, decide_eq_false hFailed])
      exact call_balance_ne _ c hSame
    refine ⟨hStored, ?_⟩
    have hNet := returnedTrue_net worker hStored
    have hTotal := hCounts.total
    rw [Int.add_sub_assoc, hNet] at hTotal
    exact hRun.mp hTotal
  · rintro ⟨hStored, hFits⟩
    have hNet := returnedTrue_net worker hStored
    constructor
    case total =>
      rw [Int.add_sub_assoc, hNet]
      exact hRun.mpr hFits
    case unchanged =>
      intro before c after hCalls hFalse
      have hWrite := hStored c (by simp [hCalls])
      rw [call_snd, hWrite] at hFalse
      cases hFalse
    case written =>
      intro before c after hCalls _
      have hWrite := hStored c (by simp [hCalls])
      refine ⟨_, _, call_znode _ hWrite, ?_, rfl⟩
      rw [JsonUtil.jsonBytes2Object, Json.read_text]
      exact WsNode.fromJson_toJson _

/- A login and a logout that are both written. -/
theorem countsSuccesses_loginLogout :
    CountsSuccesses ⟨{}, none⟩
      [⟨.incBalance, .stored⟩, ⟨.decrBalance, .stored⟩] :=
  (countsSuccesses_iff ⟨{}, none⟩ _).mpr
    (by decide)

/- A login whose write fails is counted all the same. -/
theorem failedWrite_counted :
    ¬ CountsSuccesses ⟨{}, none⟩
      [⟨.incBalance, .failed⟩] := by
  intro hCounts
  have hSame := hCounts.unchanged [] _ [] rfl rfl
  revert hSame
  decide

end NettyWorker

end NettyCluster
