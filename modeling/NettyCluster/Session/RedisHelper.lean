import NettyCluster.Lib.Loans
import NettyCluster.Lib.Transition

/-
  How calls of the store borrow connections.

  Every call borrows a connection and keeps it in a field
  that all calls share. It issues its command on what is in
  the field, and returns what is in the field: at the end,
  and before that when something was thrown. The calls to
  set, get and remove differ only in the command.

  Main declarations:
    * `RedisHelper.Calls`, `RedisHelper.Calls.next`
    * `RedisHelper.Paired`
    * `RedisHelper.paired_of_inTime`
-/

------------------------------------------------------------
-- Calls
------------------------------------------------------------

namespace NettyCluster

namespace RedisHelper

universe u v

variable {ι : Type u}
variable {κ : Type v}

/- How far a call is. -/
inductive CallPc where
| called
| borrowed
| caught
| finishing
| done
deriving DecidableEq, Repr

/- What the pool does when a connection is borrowed. -/
inductive Borrowing (κ : Type v) where
| connection (c : κ)
| null
| throws
deriving DecidableEq

/-
  The calls: what is in the field they share, which
  connections the pool has lent to them, and how far each of
  them is.
-/
structure Calls
    (ι : Type u)
    (κ : Type v) where
  jedis : Option κ
  loans : Loans ι κ
  pc : ι → CallPc

/- A step of a call. -/
inductive Event
    (ι : Type u)
    (κ : Type v) where
| borrow (i : ι) (borrowing : Borrowing κ)
| command (i : ι) (succeeds : Bool)
| returnCaught (i : ι)
| returnFinally (i : ι)

namespace Calls

variable [DecidableEq ι]
variable [DecidableEq κ]

def setPc
    (st : Calls ι κ)
    (i : ι)
    (pc : CallPc) : Calls ι κ :=
  { st with pc := Function.update st.pc i pc }

/-
  A connection is borrowed and stored in the field. What the
  pool throws leaves the field as it is.
-/
def getJedis
    (st : Calls ι κ)
    (i : ι) : Borrowing κ → Calls ι κ
| .connection c =>
    { st with
      jedis := some c
      loans := st.loans.lend i c
      pc := Function.update st.pc i .borrowed }
| .null =>
    { st with
      jedis := none
      pc := Function.update st.pc i .borrowed }
| .throws => st.setPc i .caught

/- The command; on null it throws. -/
def command
    (st : Calls ι κ)
    (i : ι)
    (succeeds : Bool) : Calls ι κ :=
  match st.jedis with
  | none => st.setPc i .caught
  | some c =>
      { st with
        loans := st.loans.use i c
        pc :=
          Function.update st.pc i
            (if succeeds then .finishing else .caught) }

/- Return what is in the field, unless it is null. -/
def returnResource
    (st : Calls ι κ)
    (i : ι) : Calls ι κ :=
  match st.jedis with
  | none => st
  | some c =>
      { st with loans := st.loans.giveBack i c }

/- What a step leads to. -/
def next
    (st : Calls ι κ) : Event ι κ → Calls ι κ
| .borrow i borrowing => st.getJedis i borrowing
| .command i succeeds => st.command i succeeds
| .returnCaught i =>
    (st.returnResource i).setPc i .finishing
| .returnFinally i =>
    (st.returnResource i).setPc i .done

/-
  Each call makes its steps in their order. The pool lends
  connections that it has not lent.
-/
def Allowed (st : Calls ι κ) : Event ι κ → Prop
| .borrow i borrowing =>
    st.pc i = .called ∧
      ∀ c, borrowing = .connection c →
        st.loans.holder c = none
| .command i _ => st.pc i = .borrowed
| .returnCaught i => st.pc i = .caught
| .returnFinally i => st.pc i = .finishing

/-
  In the field is the connection that the call still has,
  and null when it has none.
-/
def FieldOwn
    (st : Calls ι κ)
    (i : ι) : Prop :=
  ∀ c, st.jedis = some c ↔ st.loans.holder c = some i

/- What is used or returned is found in the field. -/
def FindsOwn (st : Calls ι κ) : Event ι κ → Prop
| .borrow _ _ => True
| .command i _ => st.FieldOwn i
| .returnCaught i => st.FieldOwn i
| .returnFinally i => st.FieldOwn i

/- Some step. -/
def AnyStep (st st' : Calls ι κ) : Prop :=
  ∃ event, st.Allowed event ∧ st' = st.next event

/- Nothing was called yet. -/
def Start (st : Calls ι κ) : Prop :=
  st = ⟨none, .empty, fun _ => .called⟩

end Calls

variable [DecidableEq ι]

/-
  Connections are used and returned by the calls they are
  lent to, and a call that is done has returned what it was
  lent, once.
-/
structure Paired (st : Calls ι κ) : Prop where
  used : ∀ a ∈ st.loans.used, a.holder = some a.borrower
  returned :
    ∀ a ∈ st.loans.returned, a.holder = some a.borrower
  once :
    ∀ i c, (i, c) ∈ st.loans.lent → st.pc i = .done →
      st.loans.returnedBy i = [⟨i, c, some i⟩]

end RedisHelper

end NettyCluster

------------------------------------------------------------
-- What Happened to the Calls
------------------------------------------------------------

namespace NettyCluster

namespace RedisHelper

universe u v

variable {ι : Type u}
variable {κ : Type v}

/- A call was lent a connection. -/
def Lent
    (events : List (Event ι κ))
    (i : ι)
    (c : κ) : Prop :=
  .borrow i (.connection c) ∈ events

/- A call has begun and is not done. -/
def InProgress
    (events : List (Event ι κ))
    (i : ι) : Prop :=
  (∃ borrowing, .borrow i borrowing ∈ events) ∧
    .returnFinally i ∉ events

/-
  What the last borrowing gave that did not throw. The last
  event comes first.
-/
def lastBorrowed : List (Event ι κ) → Option κ
| [] => none
| .borrow _ (.connection c) :: _ => some c
| .borrow _ .null :: _ => none
| _ :: events => lastBorrowed events

/-
  What may happen next. A connection is borrowed while no
  call is in progress, and null while none is that was lent
  a connection; borrowing throws only when what was borrowed
  last is null; and no command fails on a connection.
-/
def InTime
    (events : List (Event ι κ)) : Event ι κ → Prop
| .borrow _ (.connection _) => ∀ j, ¬ InProgress events j
| .borrow _ .null =>
    ∀ j c, InProgress events j → ¬ Lent events j c
| .borrow _ .throws => lastBorrowed events = none
| .command i false => ∀ c, ¬ Lent events i c
| .command _ true => True
| .returnCaught _ => True
| .returnFinally _ => True

/- The calls, and what happened to them so far. -/
structure Trace
    (ι : Type u)
    (κ : Type v) where
  calls : Calls ι κ
  events : List (Event ι κ)

variable [DecidableEq ι]
variable [DecidableEq κ]

namespace Trace

/- Something happens that may happen next. -/
def InTimeStep (st st' : Trace ι κ) : Prop :=
  ∃ event, st.calls.Allowed event ∧
    InTime st.events event ∧
    st' = ⟨st.calls.next event, event :: st.events⟩

/- Nothing was called yet. -/
def Start (st : Trace ι κ) : Prop :=
  Calls.Start st.calls ∧ st.events = []

end Trace

end RedisHelper

end NettyCluster

------------------------------------------------------------
-- Steps on a Call's Own Connection
------------------------------------------------------------

namespace NettyCluster

namespace RedisHelper

universe u v

variable {ι : Type u}
variable {κ : Type v}
variable [DecidableEq ι]
variable [DecidableEq κ]
variable {st : Calls ι κ}

/-
  The ledger is orderly, and a call that has not begun or is
  done has no connection.
-/
structure Inv (st : Calls ι κ) : Prop where
  orderly : st.loans.Orderly
  fresh :
    ∀ i, st.pc i = .called → st.loans.returnedBy i = []
  nothing :
    ∀ i, st.pc i = .called ∨ st.pc i = .done →
      ∀ c, st.loans.holder c ≠ some i

namespace Inv

omit [DecidableEq κ] in
theorem start
    (hStart : Calls.Start st) :
    Inv st := by
  rw [hStart]
  refine ⟨.empty, fun _ _ => rfl, ?_⟩
  simp [Loans.empty]

/- A call that goes on has begun, and is not done. -/
omit [DecidableEq κ] in
theorem setPc
    (hInv : Inv st)
    {i : ι}
    {pc : CallPc}
    (hBegun : pc ≠ .called)
    (hNothing :
      pc = .done → ∀ c, st.loans.holder c ≠ some i) :
    Inv (st.setPc i pc) := by
  refine ⟨hInv.orderly, ?_, ?_⟩
  · intro j hPc
    by_cases hSame : j = i
    · subst hSame
      simp only [Calls.setPc, Function.update_self] at hPc
      exact absurd hPc hBegun
    · simp only [Calls.setPc, Function.update_of_ne hSame]
        at hPc
      exact hInv.fresh j hPc
  · intro j hPc
    by_cases hSame : j = i
    · subst hSame
      simp only [Calls.setPc, Function.update_self] at hPc
      exact hNothing (hPc.resolve_left hBegun)
    · simp only [Calls.setPc, Function.update_of_ne hSame]
        at hPc
      exact hInv.nothing j hPc

/- Only what is in the field matters nothing here. -/
omit [DecidableEq κ] in
theorem setJedis
    (hInv : Inv st)
    (jedis : Option κ) :
    Inv { st with jedis := jedis } :=
  ⟨hInv.orderly, hInv.fresh, hInv.nothing⟩

/- A connection is lent to a call that begins. -/
theorem lend
    (hInv : Inv st)
    {i : ι}
    {c : κ}
    (hPc : st.pc i = .called)
    (hFree : st.loans.holder c = none) :
    Inv
      { st with
        loans := st.loans.lend i c
        pc := Function.update st.pc i .borrowed } := by
  refine ⟨hInv.orderly.lend hFree (hInv.fresh i hPc),
    ?_, ?_⟩
  · intro j hPc'
    rw [Loans.returnedBy_lend]
    by_cases hSame : j = i
    · subst hSame
      exact hInv.fresh j hPc
    · apply hInv.fresh j
      simpa [hSame] using hPc'
  · intro j hPc' d
    by_cases hSame : j = i
    · subst hSame
      simp at hPc'
    · have hBefore : st.pc j = .called ∨ st.pc j = .done := by
        simpa [hSame] using hPc'
      by_cases hItem : d = c
      · subst hItem
        simp [Loans.lend, Ne.symm hSame]
      · simpa [Loans.lend, hItem] using
          hInv.nothing j hBefore d

/- A call uses the connection that it has. -/
omit [DecidableEq κ] in
theorem use
    (hInv : Inv st)
    {i : ι}
    {c : κ}
    (hHolder : st.loans.holder c = some i) :
    Inv { st with loans := st.loans.use i c } :=
  ⟨hInv.orderly.use hHolder, hInv.fresh, hInv.nothing⟩

/-
  A call that finds its own in the field returns it, and has
  none afterwards.
-/
theorem returnResource
    (hInv : Inv st)
    {i : ι}
    (hPc : st.pc i ≠ .called)
    (hOwn : st.FieldOwn i) :
    Inv (st.returnResource i) ∧
      ∀ c, (st.returnResource i).loans.holder c ≠
        some i := by
  unfold Calls.returnResource
  cases hField : st.jedis with
  | none =>
      refine ⟨hInv, ?_⟩
      intro c hHolder
      rw [← hOwn c, hField] at hHolder
      cases hHolder
  | some c =>
      have hHolder := (hOwn c).mp hField
      have hOnly :
          ∀ d, st.loans.holder d = some i → d = c := by
        intro d hThere
        rw [← hOwn d, hField] at hThere
        exact (Option.some.inj hThere).symm
      have hOthers :
          ∀ j d, st.loans.holder d ≠ some j →
            (st.loans.giveBack i c).holder d ≠ some j := by
        intro j d hNot
        by_cases hSame : d = c
        · simp [Loans.giveBack, hSame]
        · simpa [Loans.giveBack, hSame] using hNot
      refine ⟨⟨hInv.orderly.giveBack hHolder hOnly, ?_,
        ?_⟩, ?_⟩
      · intro j hPc'
        have hOther : i ≠ j := by
          rintro rfl
          exact hPc hPc'
        rw [Loans.returnedBy_giveBack, if_neg hOther,
          List.append_nil]
        exact hInv.fresh j hPc'
      · intro j hPc' d
        exact hOthers j d (hInv.nothing j hPc' d)
      · intro d
        by_cases hSame : d = c
        · simp [Loans.giveBack, hSame]
        · exact hOthers i d fun hThere =>
            hSame (hOnly d hThere)

/- A step that finds the call's own keeps the invariant. -/
theorem next
    (hInv : Inv st)
    (event : Event ι κ)
    (hAllowed : st.Allowed event)
    (hTime : st.FindsOwn event) :
    Inv (st.next event) := by
  cases event with
  | borrow i borrowing =>
      rcases hAllowed with ⟨hPc, hFree⟩
      cases borrowing with
      | connection c =>
          exact (hInv.lend hPc (hFree c rfl)).setJedis
            (some c)
      | null =>
          exact (hInv.setPc (by simp) (by simp)).setJedis
            none
      | throws => exact hInv.setPc (by simp) (by simp)
  | command i succeeds =>
      dsimp only [Calls.next]
      unfold Calls.command
      cases hField : st.jedis with
      | none => exact hInv.setPc (by simp) (by simp)
      | some c =>
          have hUsed := hInv.use ((hTime c).mp hField)
          have hNext :
              Inv (Calls.setPc
                { st with loans := st.loans.use i c } i
                (if succeeds then .finishing
                  else .caught)) :=
            hUsed.setPc (by split <;> simp)
              (by split <;> simp)
          rw [Calls.setPc, hField] at hNext
          exact hNext
  | returnCaught i =>
      have hPc : st.pc i ≠ .called := by
        rw [show st.pc i = .caught from hAllowed]
        simp
      exact (hInv.returnResource hPc hTime).1.setPc
        (by simp) (by simp)
  | returnFinally i =>
      have hPc : st.pc i ≠ .called := by
        rw [show st.pc i = .finishing from hAllowed]
        simp
      rcases hInv.returnResource hPc hTime with
        ⟨hAfter, hNothing⟩
      exact hAfter.setPc (by simp) fun _ => hNothing

omit [DecidableEq κ] in
theorem paired
    (hInv : Inv st) :
    Paired st := by
  refine ⟨hInv.orderly.used, hInv.orderly.returned, ?_⟩
  intro i c hLent hDone
  exact hInv.orderly.returned_once hLent
    (hInv.nothing i (.inr hDone))

end Inv

end RedisHelper

end NettyCluster

------------------------------------------------------------
-- Calls in Time
------------------------------------------------------------

namespace NettyCluster

namespace RedisHelper

universe u v

variable {ι : Type u}
variable {κ : Type v}

/- Whose step it is. -/
def Event.call : Event ι κ → ι
| .borrow i _ => i
| .command i _ => i
| .returnCaught i => i
| .returnFinally i => i

/- Steps of other calls do not bear on a call. -/
theorem mem_cons_of_call_ne
    {events : List (Event ι κ)}
    {event e : Event ι κ}
    (hOther : event.call ≠ e.call) :
    e ∈ event :: events ↔ e ∈ events := by
  rw [List.mem_cons]
  refine or_iff_right ?_
  rintro rfl
  exact hOther rfl

theorem lent_cons_iff
    {events : List (Event ι κ)}
    {event : Event ι κ}
    {i : ι}
    (hOther : event.call ≠ i)
    (c : κ) :
    Lent (event :: events) i c ↔ Lent events i c :=
  mem_cons_of_call_ne hOther

theorem begun_cons_iff
    {events : List (Event ι κ)}
    {event : Event ι κ}
    {i : ι}
    (hOther : event.call ≠ i) :
    (∃ b, .borrow i b ∈ event :: events) ↔
      ∃ b, .borrow i b ∈ events :=
  exists_congr fun _ => mem_cons_of_call_ne hOther

theorem returned_cons_iff
    {events : List (Event ι κ)}
    {event : Event ι κ}
    {i : ι}
    (hOther : event.call ≠ i) :
    .returnFinally i ∈ event :: events ↔
      .returnFinally i ∈ events :=
  mem_cons_of_call_ne hOther

theorem inProgress_cons_iff
    {events : List (Event ι κ)}
    {event : Event ι κ}
    {i : ι}
    (hOther : event.call ≠ i) :
    InProgress (event :: events) i ↔
      InProgress events i := by
  rw [InProgress, InProgress, begun_cons_iff hOther,
    returned_cons_iff hOther]

/-
  How far a call is follows from what happened to it. While
  it is in progress it finds in the field what it has, which
  is what it was lent.
-/
structure FollowsAt
    (st : Trace ι κ)
    (i : ι) : Prop where
  begun :
    (∃ b, .borrow i b ∈ st.events) ↔
      st.calls.pc i ≠ .called
  done :
    .returnFinally i ∈ st.events ↔ st.calls.pc i = .done
  held :
    InProgress st.events i →
      ∀ c, Lent st.events i c ↔
        st.calls.loans.holder c = some i
  own : InProgress st.events i → st.calls.FieldOwn i
  caught :
    st.calls.pc i = .caught → ∀ c, ¬ Lent st.events i c

namespace FollowsAt

variable {st : Trace ι κ}
variable {i : ι}

theorem inProgress_iff
    (hAt : FollowsAt st i) :
    InProgress st.events i ↔
      st.calls.pc i ≠ .called ∧ st.calls.pc i ≠ .done := by
  rw [InProgress, hAt.begun, hAt.done]

/- A call that is not moved, and loses nothing. -/
theorem other
    (hAt : FollowsAt st i)
    {event : Event ι κ}
    {calls : Calls ι κ}
    (hOther : event.call ≠ i)
    (hPc : calls.pc i = st.calls.pc i)
    (hKeep :
      InProgress st.events i →
        (∀ c, calls.loans.holder c = some i ↔
          st.calls.loans.holder c = some i) ∧
        calls.FieldOwn i) :
    FollowsAt ⟨calls, event :: st.events⟩ i where
  begun := by
    rw [begun_cons_iff hOther, hPc]
    exact hAt.begun
  done := by
    rw [returned_cons_iff hOther, hPc]
    exact hAt.done
  held hBusy c := by
    rw [inProgress_cons_iff hOther] at hBusy
    rw [lent_cons_iff hOther, (hKeep hBusy).1 c]
    exact hAt.held hBusy c
  own hBusy := by
    rw [inProgress_cons_iff hOther] at hBusy
    exact (hKeep hBusy).2
  caught hPc' c := by
    rw [lent_cons_iff hOther]
    exact hAt.caught (hPc.symm.trans hPc') c

/- A call that goes on with what it has. -/
theorem goOn
    (hAt : FollowsAt st i)
    {event : Event ι κ}
    {calls : Calls ι κ}
    (hEvent :
      (∀ b, event ≠ .borrow i b) ∧ event ≠ .returnFinally i)
    (hBusy : InProgress st.events i)
    (hPc :
      calls.pc i ≠ .called ∧ calls.pc i ≠ .done)
    (hHolder :
      calls.loans.holder = st.calls.loans.holder)
    (hJedis : calls.jedis = st.calls.jedis)
    (hCaught :
      calls.pc i = .caught → ∀ c, ¬ Lent st.events i c) :
    FollowsAt ⟨calls, event :: st.events⟩ i := by
  have hBorrow :
      ∀ b, .borrow i b ∈ event :: st.events ↔
        .borrow i b ∈ st.events := by
    intro b
    rw [List.mem_cons, or_iff_right (hEvent.1 b).symm]
  constructor
  case begun =>
    simp only [hBorrow]
    exact iff_of_true hBusy.1 hPc.1
  case done =>
    rw [List.mem_cons, or_iff_right hEvent.2.symm]
    exact iff_of_false hBusy.2 hPc.2
  case held =>
    intro _ c
    rw [Lent, hBorrow, hHolder]
    exact hAt.held hBusy c
  case own =>
    intro _ c
    rw [hJedis, hHolder]
    exact hAt.own hBusy c
  case caught =>
    intro hPc' c
    rw [Lent, hBorrow]
    exact hCaught hPc' c

end FollowsAt

variable [DecidableEq ι]

/- What the calls hold follows from what happened. -/
structure Follows (st : Trace ι κ) : Prop where
  inv : Inv st.calls
  jedis : st.calls.jedis = lastBorrowed st.events
  at_ : ∀ i, FollowsAt st i

namespace Follows

variable {st st' : Trace ι κ}
variable {i : ι}

theorem start
    (hStart : Trace.Start st) :
    Follows st := by
  rcases st with ⟨calls, events⟩
  rcases hStart with ⟨hCalls, hEvents⟩
  dsimp only at hCalls hEvents
  have hInv := Inv.start hCalls
  subst hEvents
  rw [Calls.Start] at hCalls
  subst hCalls
  refine ⟨hInv, rfl, ?_⟩
  intro i
  constructor <;> simp [InProgress]

/- Nobody was ever lent something before it began. -/
theorem not_lent_called
    (hFollows : Follows st)
    (hPc : st.calls.pc i = .called)
    (c : κ) :
    ¬ Lent st.events i c := by
  intro hLent
  exact (hFollows.at_ i).begun.mp ⟨_, hLent⟩ hPc

/- Who was lent nothing finds nothing. -/
theorem jedis_none
    (hFollows : Follows st)
    (hBusy : InProgress st.events i)
    (hNone : ∀ c, ¬ Lent st.events i c) :
    st.calls.jedis = none := by
  apply Option.eq_none_iff_forall_ne_some.mpr
  intro c hField
  have hHolder := ((hFollows.at_ i).own hBusy c).mp hField
  exact hNone c (((hFollows.at_ i).held hBusy c).mpr hHolder)

variable [DecidableEq κ]

/- A call that is lent a connection runs alone. -/
theorem borrow_connection
    (hFollows : Follows st)
    {c : κ}
    (hAllowed :
      st.calls.Allowed (.borrow i (.connection c)))
    (hAlone : ∀ j, ¬ InProgress st.events j) :
    Follows
      ⟨st.calls.getJedis i (.connection c),
        .borrow i (.connection c) :: st.events⟩ := by
  refine ⟨hFollows.inv.next _ hAllowed trivial, rfl, ?_⟩
  rcases hAllowed with ⟨hPc, -⟩
  intro j
  by_cases hSame : j = i
  · subst hSame
    have hAt := hFollows.at_ j
    have hHolder :
        ∀ d, (st.calls.loans.lend j c).holder d = some j ↔
          c = d := by
      intro d
      by_cases hItem : d = c
      · simp [Loans.lend, hItem]
      · simpa [Loans.lend, hItem, Ne.symm hItem] using
          hFollows.inv.nothing j (.inl hPc) d
    constructor
    case begun =>
      simp [Calls.getJedis]
    case done =>
      simp [Calls.getJedis, hAt.done, hPc]
    case held =>
      intro _ d
      rw [Calls.getJedis, hHolder, Lent, List.mem_cons]
      constructor
      · rintro (hNow | hOld)
        · cases hNow
          rfl
        · exact absurd hOld (hFollows.not_lent_called hPc d)
      · rintro rfl
        exact .inl rfl
    case own =>
      intro _ d
      rw [Calls.getJedis, hHolder, Option.some.injEq]
    case caught => simp [Calls.getJedis]
  · have hOther : (Event.borrow i (.connection c) : Event ι κ).call ≠ j :=
      Ne.symm hSame
    apply (hFollows.at_ j).other hOther
    · exact Function.update_of_ne hSame _ _
    · exact fun hBusy => absurd hBusy (hAlone j)

/- A call that begins without a connection. -/
theorem borrow_none
    (hFollows : Follows st)
    {b : Borrowing κ}
    {pc : CallPc}
    (hNext :
      st.calls.getJedis i b =
        { st.calls with
          jedis := none
          pc := Function.update st.calls.pc i pc })
    (hBegun : pc ≠ .called ∧ pc ≠ .done)
    (hLast :
      lastBorrowed (.borrow i b :: st.events) = none)
    (hNone : ∀ c, b ≠ .connection c)
    (hAllowed : st.calls.Allowed (.borrow i b))
    (hOthers :
      ∀ j, InProgress st.events j →
        ∀ c, ¬ Lent st.events j c) :
    Follows
      ⟨st.calls.getJedis i b,
        .borrow i b :: st.events⟩ := by
  refine ⟨hFollows.inv.next _ hAllowed trivial, ?_, ?_⟩
  · rw [hNext, hLast]
  rcases hAllowed with ⟨hPc, -⟩
  rw [hNext]
  intro j
  by_cases hSame : j = i
  · subst hSame
    have hNothing := hFollows.inv.nothing j (.inl hPc)
    have hNotLent :
        ∀ c, ¬ Lent (.borrow j b :: st.events) j c := by
      intro c hLent
      rcases List.mem_cons.mp hLent with hNow | hOld
      · cases hNow
        exact hNone c rfl
      · exact hFollows.not_lent_called hPc c hOld
    constructor
    case begun => simpa using hBegun.1
    case done =>
      simp [(hFollows.at_ j).done, hPc, hBegun.2]
    case held =>
      exact fun _ c =>
        iff_of_false (hNotLent c) (hNothing c)
    case own =>
      exact fun _ c =>
        iff_of_false (by simp) (hNothing c)
    case caught => exact fun _ => hNotLent
  · have hOther : (Event.borrow i b : Event ι κ).call ≠ j :=
      Ne.symm hSame
    apply (hFollows.at_ j).other hOther
    · exact Function.update_of_ne hSame _ _
    · intro hBusy
      refine ⟨fun _ => Iff.rfl, fun c => ?_⟩
      rw [← (hFollows.at_ j).held hBusy c]
      exact iff_of_false (by simp) (hOthers j hBusy c)

/- The command of a call. -/
theorem command
    (hFollows : Follows st)
    {succeeds : Bool}
    (hAllowed : st.calls.Allowed (.command i succeeds))
    (hTime : InTime st.events (.command i succeeds)) :
    Follows
      ⟨st.calls.command i succeeds,
        .command i succeeds :: st.events⟩ := by
  have hPc : st.calls.pc i = .borrowed := hAllowed
  have hBusy : InProgress st.events i :=
    (hFollows.at_ i).inProgress_iff.mpr (by simp [hPc])
  have hOwn := (hFollows.at_ i).own hBusy
  have hSame :
      (st.calls.command i succeeds).jedis =
          st.calls.jedis ∧
        (st.calls.command i succeeds).loans.holder =
          st.calls.loans.holder := by
    unfold Calls.command
    split <;> exact ⟨rfl, rfl⟩
  have hNext :
      (st.calls.command i succeeds).pc =
        Function.update st.calls.pc i
          (if succeeds ∧ st.calls.jedis ≠ none then
            .finishing
          else .caught) := by
    unfold Calls.command
    cases hField : st.calls.jedis <;>
      simp [Calls.setPc]
  refine ⟨hFollows.inv.next _ hAllowed hOwn,
    hSame.1.trans hFollows.jedis, ?_⟩
  intro j
  by_cases hSelf : j = i
  · subst hSelf
    refine (hFollows.at_ j).goOn (by simp) hBusy ?_ hSame.2
      hSame.1 ?_
    · rw [hNext, Function.update_self]
      split <;> simp
    · rw [hNext, Function.update_self]
      intro hCaught c hLent
      have hField : st.calls.jedis = some c :=
        (hOwn c).mpr
          (((hFollows.at_ j).held hBusy c).mp hLent)
      cases succeeds with
      | true => simp [hField] at hCaught
      | false => exact hTime c hLent
  · have hOther : (Event.command i succeeds : Event ι κ).call ≠ j :=
      Ne.symm hSelf
    apply (hFollows.at_ j).other hOther
    · rw [hNext, Function.update_of_ne hSelf]
    · intro hBusyJ
      refine ⟨fun c => by rw [hSame.2], fun c => ?_⟩
      rw [hSame.1, hSame.2]
      exact (hFollows.at_ j).own hBusyJ c

/- A call that returns after something was thrown. -/
theorem returnCaught
    (hFollows : Follows st)
    (hAllowed : st.calls.Allowed (.returnCaught i)) :
    Follows
      ⟨st.calls.next (.returnCaught i),
        .returnCaught i :: st.events⟩ := by
  have hPc : st.calls.pc i = .caught := hAllowed
  have hBusy : InProgress st.events i :=
    (hFollows.at_ i).inProgress_iff.mpr (by simp [hPc])
  have hField := hFollows.jedis_none hBusy
    ((hFollows.at_ i).caught hPc)
  have hNext :
      st.calls.next (.returnCaught i) =
        st.calls.setPc i .finishing := by
    simp only [Calls.next, Calls.returnResource, hField]
  refine ⟨hFollows.inv.next _ hAllowed
    ((hFollows.at_ i).own hBusy), ?_, ?_⟩
  · rw [hNext]
    exact hFollows.jedis
  rw [hNext]
  intro j
  by_cases hSelf : j = i
  · subst hSelf
    exact (hFollows.at_ j).goOn (by simp) hBusy
      (by simp [Calls.setPc]) rfl rfl
      (by simp [Calls.setPc])
  · have hOther : (Event.returnCaught i : Event ι κ).call ≠ j :=
      Ne.symm hSelf
    apply (hFollows.at_ j).other hOther
    · exact Function.update_of_ne hSelf _ _
    · intro hBusyJ
      exact ⟨fun _ => Iff.rfl, (hFollows.at_ j).own hBusyJ⟩

/- A call that returns at its end. -/
theorem returnFinally
    (hFollows : Follows st)
    (hAllowed : st.calls.Allowed (.returnFinally i)) :
    Follows
      ⟨st.calls.next (.returnFinally i),
        .returnFinally i :: st.events⟩ := by
  have hPc : st.calls.pc i = .finishing := hAllowed
  have hBusy : InProgress st.events i :=
    (hFollows.at_ i).inProgress_iff.mpr (by simp [hPc])
  have hOwn := (hFollows.at_ i).own hBusy
  have hNextPc :
      (st.calls.next (.returnFinally i)).pc =
        Function.update st.calls.pc i .done := by
    unfold Calls.next Calls.returnResource
    cases st.calls.jedis <;> rfl
  have hJedis :
      (st.calls.next (.returnFinally i)).jedis =
        st.calls.jedis := by
    simp only [Calls.next, Calls.returnResource,
      Calls.setPc]
    split <;> rfl
  refine ⟨hFollows.inv.next _ hAllowed hOwn,
    hJedis.trans hFollows.jedis, ?_⟩
  intro j
  by_cases hSelf : j = i
  · subst hSelf
    have hDone :
        ¬ InProgress (.returnFinally j :: st.events) j :=
      fun hStill => hStill.2 List.mem_cons_self
    constructor
    case begun =>
      rw [hNextPc, Function.update_self]
      rcases hBusy.1 with ⟨b, hMem⟩
      exact iff_of_true
        ⟨b, List.mem_cons_of_mem _ hMem⟩ (by simp)
    case done => simp [hNextPc]
    case held => exact fun hStill => absurd hStill hDone
    case own => exact fun hStill => absurd hStill hDone
    case caught => simp [hNextPc]
  · have hOther : (Event.returnFinally i : Event ι κ).call ≠ j :=
      Ne.symm hSelf
    apply (hFollows.at_ j).other hOther
    · rw [hNextPc, Function.update_of_ne hSelf]
    · intro hBusyJ
      have hOwnJ := (hFollows.at_ j).own hBusyJ
      -- two calls in progress have no connection
      have hField : st.calls.jedis = none := by
        cases hField : st.calls.jedis with
        | none => rfl
        | some c =>
            have hBoth :=
              ((hOwn c).mp hField).symm.trans
                ((hOwnJ c).mp hField)
            exact absurd (Option.some.inj hBoth).symm hSelf
      have hLoans :
          (st.calls.next (.returnFinally i)).loans =
            st.calls.loans := by
        simp only [Calls.next, Calls.returnResource, hField]
        rfl
      refine ⟨fun c => by rw [hLoans], fun c => ?_⟩
      rw [hJedis, hLoans]
      exact hOwnJ c

/- What may happen next keeps all of it. -/
theorem step
    (hFollows : Follows st)
    (hStep : Trace.InTimeStep st st') :
    Follows st' := by
  rcases hStep with ⟨event, hAllowed, hTime, rfl⟩
  cases event with
  | borrow i borrowing =>
      cases borrowing with
      | connection c =>
          exact hFollows.borrow_connection hAllowed hTime
      | null =>
          exact hFollows.borrow_none rfl (by simp) rfl
            (by simp) hAllowed
            fun j hBusy c => hTime j c hBusy
      | throws =>
          have hField : st.calls.jedis = none :=
            hFollows.jedis.trans hTime
          have hLast :
              lastBorrowed
                (.borrow i .throws :: st.events) = none := by
            rw [lastBorrowed]
            · exact hTime
            all_goals simp
          have hNext :
              st.calls.getJedis i .throws =
                { st.calls with
                  jedis := none
                  pc := Function.update st.calls.pc i
                    .caught } := by
            rw [← hField]
            rfl
          refine hFollows.borrow_none hNext (by simp) hLast
            (by simp) hAllowed ?_
          · intro j hBusy c hLent
            have hAt := hFollows.at_ j
            have hHolder := (hAt.held hBusy c).mp hLent
            rw [← hAt.own hBusy c, hField] at hHolder
            cases hHolder
  | command i succeeds =>
      exact hFollows.command hAllowed hTime
  | returnCaught i => exact hFollows.returnCaught hAllowed
  | returnFinally i => exact hFollows.returnFinally hAllowed

end Follows

variable [DecidableEq κ]

/-
  In every run in which no two calls overlap, but for calls
  that were lent nothing, and no command or borrowing throws
  when there is a connection in the field, connections are
  borrowed and returned one for one.
-/
theorem paired_of_inTime
    (st : Trace ι κ)
    (hReach :
      Transition.Reach Trace.Start Trace.InTimeStep st) :
    Paired st.calls := by
  have hFollows : Follows st :=
    hReach.invariant (fun _ hStart => .start hStart)
      fun _ _ hBefore hStep => hBefore.step hStep
  exact hFollows.inv.paired

------------------------------------------------------------
-- One Connection
------------------------------------------------------------

/- Calls of which none has begun. -/
def uncalled : Calls Bool Unit :=
  ⟨none, .empty, fun _ => .called⟩

/- Two calls that use the connection one after the other. -/
def oneByOne : List (Event Bool Unit) :=
  [.borrow true (.connection ()), .command true true,
    .returnFinally true, .borrow false (.connection ()),
    .command false true, .returnFinally false]

/- One call whose command fails. -/
def failing : List (Event Bool Unit) :=
  [.borrow true (.connection ()), .command true false,
    .returnCaught true, .returnFinally true]

theorem paired_oneByOne :
    Paired (oneByOne.foldl Calls.next uncalled) := by
  have h0 :
      Transition.Reach Trace.Start Trace.InTimeStep
        (⟨uncalled, []⟩ : Trace Bool Unit) :=
    .init ⟨rfl, rfl⟩
  have h1 := h0.step
    ⟨.borrow true (.connection ()), ⟨rfl, fun _ _ => rfl⟩,
      by simp [InTime, InProgress], rfl⟩
  have h2 := h1.step ⟨.command true true, rfl, trivial, rfl⟩
  have h3 := h2.step ⟨.returnFinally true, rfl, trivial, rfl⟩
  have h4 := h3.step
    ⟨.borrow false (.connection ()), ⟨rfl, fun _ _ => rfl⟩,
      by simp [InTime, InProgress], rfl⟩
  have h5 := h4.step
    ⟨.command false true, rfl, trivial, rfl⟩
  have h6 := h5.step
    ⟨.returnFinally false, rfl, trivial, rfl⟩
  exact paired_of_inTime _ h6

/- The connection is returned in both blocks. -/
theorem not_paired_failing :
    ¬ ∀ st : Calls Bool Unit,
      Transition.Reach Calls.Start Calls.AnyStep st →
      Paired st := by
  intro hAll
  have hReach : Transition.Reach Calls.Start Calls.AnyStep
      (failing.foldl Calls.next uncalled) :=
    .step (.step (.step (.step (.init rfl)
      ⟨.borrow true (.connection ()),
        ⟨rfl, fun _ _ => rfl⟩, rfl⟩)
      ⟨.command true false, rfl, rfl⟩)
      ⟨.returnCaught true, rfl, rfl⟩)
      ⟨.returnFinally true, rfl, rfl⟩
  have hTwice :=
    (hAll _ hReach).returned ⟨true, (), none⟩ (by decide)
  cases hTwice

end RedisHelper

end NettyCluster
