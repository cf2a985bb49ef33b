import NettyCluster.Client.Chat
import NettyCluster.Session.Transit

/-
  What is typed is shown, once.

  While the session of a user's only page is in its place
  and its text is not replaced, every message to the user
  that the cluster reads from a page becomes one line of it:
  it is on its way through the cluster, to be sent by the
  channel, or shown.

  Main declarations:
    * `Page.Event.KeepsText`, `Chat.Event.Conveys`
    * `Chat.traffic_next`
    * `Chat.Got`, `Chat.Got.next`
    * `Chat.shown_once`
-/

------------------------------------------------------------
-- What May Happen
------------------------------------------------------------

namespace NettyCluster

open Unicode BinaryEncoder MessageInfo

namespace Page

/- What a page does that leaves its text as it is. -/
def Event.KeepsText : Event → Prop
| .closing | .keepalive | .send _ => True
| .onopen | .onmessage _ _ | .onclose | .clear => False

theorem Event.KeepsText.responseText
    {e : Event}
    (hKeeps : e.KeepsText)
    (p : Page) :
    (p.next e).responseText = p.responseText := by
  cases e with
  | closing => rfl
  | keepalive => exact socketSend_responseText p _
  | send message => exact send_responseText p message
  | onopen | onmessage | onclose | clear =>
      exact hKeeps.elim

theorem addLine_inj
    {p : Page}
    {line line' : List UInt16}
    (hSame : p.addLine line = p.addLine line') :
    line = line' := by
  have hText := congrArg Page.responseText hSame
  simpa [addLine] using hText

end Page

variable {ι : Type}

namespace Chat

/-
  What may happen while a page is to show what its user is
  sent: nothing that replaces its text or adds to it, and in
  the cluster only what lets the user's data through.
-/
def Event.Conveys
    (p : Place ι)
    (st : Chat ι) : Event ι → Prop
| .page k e => k = p.channel → e.KeepsText
| .serve e => e.Conveys p st.traffic
| _ => True

/- No other page is for the user. -/
def Only
    (st : Chat ι)
    (p : Place ι) : Prop :=
  ∀ k, (st.pages k).user = p.user → k = p.channel

/- Nobody has logged in, and no session is bound. -/
structure Opened (st : Chat ι) : Prop where
  start : st.Start
  sessionKeys :
    ∀ k, (st.traffic.clients k).sessionKey = none

variable [DecidableEq ι]

def ConveyingStep
    (clock : Int → String)
    (p : Place ι)
    (st st' : Chat ι) : Prop :=
  ∃ e, st.Allowed e ∧ e.Conveys p st ∧
    st' = st.next clock e

/-
  Between two states a page was delivered some messages, and
  has shown each of them as the line that it makes of it.
  Data it was sent is among them, or is still to be sent by
  its channel.
-/
structure Got
    (k : Nat)
    (st st' : Chat ι)
    (got : List Model)
    (lines : List (List UInt16)) : Prop where
  delivered : st'.delivered k = st.delivered k ++ got
  makes : List.Forall₂ Makes got lines
  text :
    (st'.pages k).responseText =
      (st.pages k).responseText ++
        lines.flatMap fun line => Page.newline :: line
  count :
    ∀ user peer message,
      got.count (Page.data user peer message) +
          (st'.outbox k).count
            (Page.data user peer message) +
          st.traffic.written.count
            (k, Page.data user peer message) =
        (st.outbox k).count (Page.data user peer message) +
          st'.traffic.written.count
            (k, Page.data user peer message)

end Chat

end NettyCluster

------------------------------------------------------------
-- The Cluster under the Pages
------------------------------------------------------------

namespace NettyCluster

open Unicode BinaryEncoder MessageInfo

variable {ι : Type}
variable [DecidableEq ι]

namespace Traffic

/- What was written stays written. -/
theorem written_next
    (clock : Int → String)
    (st : Traffic ι)
    (e : Event ι) :
    ∃ writes,
      (st.next clock e).written = st.written ++ writes := by
  have hSame :
      ∀ st' : Traffic ι, st'.written = st.written →
        ∃ writes, st'.written = st.written ++ writes :=
    fun st' h => ⟨[], by rw [h, List.append_nil]⟩
  cases e with
  | handle n ok writable =>
      rw [next]
      rcases st.handle_cases n ok writable with
        hId | ⟨h, _, ⟨_, _, hNext⟩ | ⟨_, _, _, hNext⟩ |
          ⟨_, _, _, hNext⟩ | ⟨_, _, _, _, _, hNext⟩⟩
      · exact hSame _ (by rw [hId])
      · exact hSame _ (by rw [hNext])
      · exact hSame _ (by rw [hNext])
      · exact hSame _ (by rw [hNext])
      · exact ⟨_, by rw [hNext]⟩
  | task k n ok =>
      apply hSame
      simp only [next, task]
      split
      · rfl
      · split_ifs <;> rfl
  | closing k n ok =>
      apply hSame
      simp only [next, closing]
      split
      · rfl
      · split_ifs <;> rfl
  | arrive n =>
      apply hSame
      simp only [next, arrive]
      split <;> rfl
  | _ => exact hSame _ rfl

end Traffic

namespace Chat

variable {clock : Int → String}
variable {st : Chat ι}

/- Reading a frame is at most a message for the cluster. -/
theorem readFrame_cases
    (hInv : st.Inv clock)
    {k : Nat}
    {sid : String}
    {handled : Bool}
    (hAllowed : st.Allowed (.readFrame k sid handled)) :
    ∃ read echoes traffic,
      st.readFrame k sid handled =
          { st with
            read := read
            echoes := echoes
            traffic := traffic } ∧
        (traffic = st.traffic ∨
          (st.traffic.Allowed
              (.online k (st.pages k).user sid) ∧
            traffic =
              st.traffic.online k (st.pages k).user sid) ∨
          ∃ m, m.getCmd = .websocketData ∧
            traffic = st.traffic.data k m) := by
  unfold Chat.readFrame
  split
  case h_1 => exact ⟨_, _, _, rfl, .inl rfl⟩
  case h_2 frame hFrame =>
    rcases (hInv.pages k).fired_frame
      (List.mem_of_getElem? hFrame) with ⟨m, hFired, hPage⟩
    dsimp only
    rw [hFired]
    cases handled with
    | false => exact ⟨_, _, _, rfl, .inl rfl⟩
    | true =>
        simp only [if_true]
        rcases hPage with rfl | rfl | ⟨message, _, _, rfl⟩
        · refine ⟨_, _, _, rfl, .inr (.inl ⟨?_, rfl⟩)⟩
          have hFrame' :
              FrameCodec.fired
                  ((st.pages k).frames[st.read k]?).toList =
                [.channelRead
                  { from_ := (st.pages k).user }] := by
            rw [hFrame]
            exact hFired
          exact hAllowed rfl _ hFrame' rfl
        · exact ⟨_, _, _, rfl, .inl rfl⟩
        · exact ⟨_, _, _, rfl, .inr (.inr ⟨_, rfl, rfl⟩)⟩

/- Each step is none of the cluster's, or one of it. -/
theorem traffic_next
    (hInv : st.Inv clock)
    {e : Event ι}
    (hAllowed : st.Allowed e) :
    (st.next clock e).traffic = st.traffic ∨
      ∃ e', st.traffic.Allowed e' ∧
        (∀ p, st.Only p → e.Conveys p st →
          e'.Conveys p st.traffic) ∧
          (st.next clock e).traffic =
            st.traffic.next clock e' := by
  cases e with
  | page k e => exact .inl rfl
  | readFrame k sid handled =>
      rcases readFrame_cases hInv hAllowed with
        ⟨read, echoes, traffic, hNext, hTraffic⟩
      rw [Chat.next, hNext]
      rcases hTraffic with
        hSame | ⟨hMay, hOnline⟩ | ⟨m, hCmd, hData⟩
      · exact .inl hSame
      · exact .inr ⟨_, hMay, fun p hOnly _ =>
          ⟨trivial, fun hOther hUser =>
            hOther (hOnly k hUser)⟩, hOnline⟩
      · exact .inr ⟨.data k m, hCmd,
          fun _ _ _ => ⟨trivial, trivial⟩, hData⟩
  | serve e =>
      exact .inr ⟨e, hAllowed.2, fun _ _ h => h, rfl⟩
  | answer k time => exact .inl rfl
  | echo n =>
      left
      simp only [Chat.next, Chat.echo]
      split <;> rfl
  | deliver k fuel =>
      left
      simp only [Chat.next, Chat.deliver]
      split
      · rfl
      · split <;> rfl

/- Pages stay pages of their users. -/
theorem user_next
    (hInv : st.Inv clock)
    {e : Event ι}
    (hAllowed : st.Allowed e)
    (k : Nat) :
    ((st.next clock e).pages k).user =
      (st.pages k).user := by
  cases e with
  | page k' e =>
      exact (update_le st.pages
        (Page.next_le (st.pages k') e) k).user
  | readFrame k' sid handled =>
      rcases readFrame_cases hInv hAllowed with
        ⟨read, echoes, traffic, hNext, _⟩
      rw [Chat.next, hNext]
  | serve e => rfl
  | answer k' time => rfl
  | echo n =>
      simp only [Chat.next, Chat.echo]
      split <;> rfl
  | deliver k' fuel =>
      simp only [Chat.next, Chat.deliver]
      split
      case h_1 => rfl
      case h_2 m outbox hOutbox =>
        split
        case h_1 => rfl
        case h_2 page hRun =>
          rcases Page.onmessage_cases hRun with
            rfl | ⟨line, rfl⟩
          · exact (update_le st.pages (.refl _) k).user
          · exact (update_le st.pages
              (Page.addLine_le _ line) k).user

theorem inv_of_opened
    (hReach : Transition.Reach Opened (Step clock) st) :
    st.Inv clock :=
  inv_of_reach
    (hReach.mono (fun _ hOpened => hOpened.start)
      fun _ _ hNext => hNext)

/- A run with pages is a run of the cluster. -/
theorem traffic_of_reach
    (hReach : Transition.Reach Opened (Step clock) st) :
    Transition.Reach Traffic.Opened (Traffic.Step clock)
      st.traffic := by
  induction hReach with
  | init hOpened =>
      exact .init ⟨hOpened.start.traffic, hOpened.sessionKeys⟩
  | step hBefore hNext ih =>
      rcases hNext with ⟨e, hAllowed, rfl⟩
      rcases traffic_next (inv_of_opened hBefore) hAllowed
        with hSame | ⟨e', hMay, _, hOne⟩
      · rw [hSame]
        exact ih
      · exact ih.step ⟨e', hMay, hOne⟩

end Chat

end NettyCluster

------------------------------------------------------------
-- What a Page Gets
------------------------------------------------------------

namespace NettyCluster

open Unicode BinaryEncoder MessageInfo

variable {ι : Type}

/- What of a list of writes goes to one channel. -/
theorem count_filter_channel
    (writes : List (Nat × Model))
    (k : Nat)
    (m : Model) :
    ((writes.filter fun w => w.1 = k).map Prod.snd).count m =
      writes.count (k, m) := by
  induction writes with
  | nil => rfl
  | cons w writes ih =>
      rcases w with ⟨k', m'⟩
      by_cases hSame : k' = k
      · subst hSame
        simp [List.count_cons, ih]
      · simp [hSame, ih]

namespace Chat

variable {clock : Int → String}
variable {st st' st'' : Chat ι}
variable {k : Nat}

namespace Got

theorem refl
    (k : Nat)
    (st : Chat ι) :
    Got k st st [] [] where
  delivered := (List.append_nil _).symm
  makes := .nil
  text := by simp
  count user peer message := by simp

theorem trans
    {got got' : List Model}
    {lines lines' : List (List UInt16)}
    (hFirst : Got k st st' got lines)
    (hSecond : Got k st' st'' got' lines') :
    Got k st st'' (got ++ got') (lines ++ lines') where
  delivered := by
    rw [hSecond.delivered, hFirst.delivered,
      List.append_assoc]
  makes := List.rel_append hFirst.makes hSecond.makes
  text := by
    rw [hSecond.text, hFirst.text, List.flatMap_append,
      List.append_assoc]
  count user peer message := by
    have hLeft := hFirst.count user peer message
    have hRight := hSecond.count user peer message
    rw [List.count_append]
    omega

/- Nothing changed that counts. -/
theorem of_same
    (hDelivered : st'.delivered k = st.delivered k)
    (hText :
      (st'.pages k).responseText = (st.pages k).responseText)
    (hOutbox : st'.outbox k = st.outbox k)
    (hWritten : st'.traffic.written = st.traffic.written) :
    Got k st st' [] [] where
  delivered := by rw [hDelivered, List.append_nil]
  makes := .nil
  text := by simp [hText]
  count user peer message := by
    rw [hOutbox, hWritten, List.count_nil, Nat.zero_add]

/- A channel writes something that is no data. -/
theorem write
    (st : Chat ι)
    (k k' : Nat)
    {m : Model}
    (hOther : m.cmd_ ≠ 3) :
    Got k st (st.write k' m) [] [] where
  delivered := (List.append_nil _).symm
  makes := .nil
  text := by simp [Chat.write]
  count user peer message := by
    have hNot : m ≠ Page.data user peer message := by
      rintro rfl
      exact hOther rfl
    simp only [Chat.write, Function.update_apply,
      List.count_nil, Nat.zero_add]
    split_ifs with hSame
    · subst hSame
      simp [hNot]
    · rfl

variable [DecidableEq ι]

/- The cluster writes to channels. -/
theorem serve
    (clock : Int → String)
    (st : Chat ι)
    (k : Nat)
    (e : Traffic.Event ι) :
    Got k st (st.serve clock e) [] [] where
  delivered := (List.append_nil _).symm
  makes := .nil
  text := by simp [Chat.serve]
  count user peer message := by
    rcases st.traffic.written_next clock e with
      ⟨writes, hWrites⟩
    simp only [Chat.serve, hWrites, List.drop_left',
      List.count_append, List.count_nil,
      count_filter_channel]
    omega

/- The page gets a message, and shows it as a line. -/
theorem deliver
    (hInv : st.Inv clock)
    (k k' fuel : Nat) :
    ∃ got lines, Got k st (st.deliver k' fuel) got lines := by
  unfold Chat.deliver
  split
  case h_1 => exact ⟨[], [], .refl k st⟩
  case h_2 m outbox hOutbox =>
    split
    case h_1 => exact ⟨[], [], .refl k st⟩
    case h_2 p hRun =>
      by_cases hSame : k = k'
      case neg =>
        refine ⟨[], [], .of_same ?_ ?_ ?_ rfl⟩
        · simp [hSame]
        · simp [hSame]
        · simp [hSame]
      case pos =>
        subst hSame
        have hHead : m ∈ st.outbox k := by simp [hOutbox]
        rcases (hInv.outbox k m hHead).makes with
          ⟨line, _, hMakes⟩
        rw [hMakes.line hRun]
        refine ⟨[m], [line], ?_, .cons hMakes .nil, ?_, ?_⟩
        · simp
        · simp [Page.addLine]
        · intro user peer message
          simp only [Function.update_self, hOutbox,
            List.count_cons, List.count_nil]
          omega

/- Whatever happens, nothing gets lost or doubled. -/
theorem next
    {p : Place ι}
    (hInv : st.Inv clock)
    {e : Event ι}
    (hAllowed : st.Allowed e)
    (hConveys : e.Conveys p st) :
    ∃ got lines,
      Got p.channel st (st.next clock e) got lines := by
  cases e with
  | page k e =>
      refine ⟨[], [], .of_same rfl ?_ rfl rfl⟩
      simp only [Chat.next, Function.update_apply]
      split_ifs with hSame
      · rw [← hSame]
        exact (hConveys hSame.symm).responseText _
      · rfl
  | readFrame k sid handled =>
      rcases readFrame_cases hInv hAllowed with
        ⟨read, echoes, traffic, hNext, hTraffic⟩
      refine ⟨[], [], ?_⟩
      rw [Chat.next, hNext]
      refine .of_same rfl rfl rfl ?_
      rcases hTraffic with
        rfl | ⟨_, rfl⟩ | ⟨m, _, rfl⟩ <;> rfl
  | serve e => exact ⟨[], [], .serve clock st p.channel e⟩
  | answer k time =>
      have hOther :
          (ConnectResponseBuilder.connectResponse
            time).cmd_ ≠ 3 :=
        (by decide : (0 : BitVec 32) ≠ 3)
      exact ⟨[], [], .write st p.channel k hOther⟩
  | echo n =>
      refine ⟨[], [], ?_⟩
      simp only [Chat.next, Chat.echo]
      split
      case h_1 => exact .refl _ st
      case h_2 k m hEcho =>
        have hBeat : m = { cmd_ := 2 } :=
          hInv.echoes _ (List.mem_of_getElem? hEcho)
        have hRest :
            Got p.channel st
              { st with echoes := st.echoes.eraseIdx n }
              [] [] :=
          .of_same rfl rfl rfl rfl
        refine hRest.trans (.write _ p.channel k ?_)
        rw [hBeat]
        decide
  | deliver k fuel => exact deliver hInv p.channel k fuel

end Got

------------------------------------------------------------
-- Every Run
------------------------------------------------------------

variable [DecidableEq ι]
variable {p : Place ι}
variable {before : Chat ι}

/-
  A run that conveys a user's data conveys it in the
  cluster, and the user's page loses and doubles nothing.
-/
theorem conveying_of_reach
    (hReach : Transition.Reach Opened (Step clock) before)
    (hOnly : before.Only p)
    (hRun :
      Transition.Reach (fun x => x = before)
        (ConveyingStep clock p) st) :
    st.Only p ∧
      Transition.Reach (fun x => x = before.traffic)
        (Traffic.ConveyingStep clock p) st.traffic ∧
      ∃ got lines, Got p.channel before st got lines := by
  induction hRun with
  | init hSame =>
      rw [hSame]
      exact ⟨hOnly, .init rfl, [], [], .refl _ _⟩
  | step hBefore hNext ih =>
      rcases hNext with ⟨e, hAllowed, hConveys, rfl⟩
      rcases ih with ⟨hPages, hTraffic, got, lines, hGot⟩
      have hInv :=
        inv_of_opened (hReach.trans
          (hBefore.mono (fun _ hSame => hSame)
            fun _ _ ⟨e, hMay, _, hNext⟩ => ⟨e, hMay, hNext⟩))
      rcases Got.next hInv hAllowed hConveys with
        ⟨got', lines', hGot'⟩
      refine ⟨?_, ?_, _, _, hGot.trans hGot'⟩
      · intro k hUser
        rw [user_next hInv hAllowed] at hUser
        exact hPages k hUser
      · rcases traffic_next hInv hAllowed with
          hSame | ⟨e', hMay, hKeeps, hOne⟩
        · rw [hSame]
          exact hTraffic
        · exact hTraffic.step
            ⟨e', hMay, hKeeps p hPages hConveys, hOne⟩

/- A page makes one line of a message. -/
theorem Makes.unique
    {m : Model}
    {line line' : List UInt16}
    (hMakes : Makes m line)
    (hMakes' : Makes m line') :
    line = line' := by
  rcases hMakes' Page.loaded with ⟨fuel, hRun⟩
  exact (Page.addLine_inj (hMakes.line hRun)).symm

/-
  All that is added to a page's text is a line for each
  message that the page was delivered. Whatever the cluster
  reads for the user of the page is delivered once: until
  then it is on its way in the cluster, or to be sent by the
  channel. Its line is what was typed, without the high
  surrogates that another unit follows unpaired.
-/
theorem shown_once
    (hReach : Transition.Reach Opened (Step clock) before)
    (hOnly : before.Only p)
    (hPlace : before.traffic.InPlace p)
    (hRun :
      Transition.Reach (fun x => x = before)
        (ConveyingStep clock p) st) :
    ∃ (got : List Model) (lines : List (List UInt16)),
      st.delivered p.channel =
          before.delivered p.channel ++ got ∧
        List.Forall₂ Makes got lines ∧
        (st.pages p.channel).responseText =
          (before.pages p.channel).responseText ++
            lines.flatMap
              (fun line => Page.newline :: line) ∧
        ∀ user message msg,
          msg = Page.data user p.user message →
          msg.toByteArray.length < 2 ^ 31 →
            (∀ line, Makes msg line ↔
              line =
                Page.normalizeNewlines
                  (dropUnpaired message)) ∧
            got.count msg +
                (st.outbox p.channel).count msg +
                (Account.total (Handling.left msg)
                    st.traffic.handlings +
                  st.traffic.inFlight.countP fun packet =>
                    packet.pkg = msg) +
                before.traffic.received.count msg =
              (before.outbox p.channel).count msg +
                (Account.total (Handling.left msg)
                    before.traffic.handlings +
                  before.traffic.inFlight.countP
                    fun packet => packet.pkg = msg) +
                st.traffic.received.count msg := by
  rcases conveying_of_reach hReach hOnly hRun with
    ⟨_, hTraffic, got, lines, hGot⟩
  have hAlone : before.traffic.Alone p := by
    intro k hMem
    exact hOnly k
      ((inv_of_opened hReach).online k p.user hMem).symm
  refine ⟨got, lines, hGot.delivered, hGot.makes, hGot.text,
    ?_⟩
  rintro user message msg rfl hShort
  constructor
  · intro line
    constructor
    · exact fun hMakes => hMakes.unique (makes_data hShort)
    · rintro rfl
      exact makes_data hShort
  · have hShown := hGot.count user p.user message
    have hDelivered :=
      (@Traffic.transit_of_reach _ _ _ _ _ _
        (traffic_of_reach hReach) hPlace hAlone hTraffic
        (Page.data user p.user message) rfl).2
    simp only [Account.Balances, Place.transit]
      at hDelivered
    omega

------------------------------------------------------------
-- A Run
------------------------------------------------------------

/- The pages are opened, and the first one's login done. -/
def welcomed : Chat Bool :=
  (List.replicate 11 (.serve (.task 0 0 true)) :
    List (Event Bool)).foldl (next fun _ => "0")
    (((quiet.next (fun _ => "0") (.page 0 .onopen)).next
      (fun _ => "0") (.page 1 .onopen)).next (fun _ => "0")
        (.readFrame 0 "s" true))

/- The session of the first page, the only one of "111". -/
def firstPage : Place Bool :=
  ⟨"111", "s", 0, false⟩

/- In the second one something is typed. -/
def answered : Chat Bool :=
  (welcomed.next (fun _ => "0")
    (.page 1 (.send [72, 55296, 105]))).next (fun _ => "0")
      (.readFrame 1 "t" false)

/- It is read, and handled in some steps. -/
def answering (n : Nat) : Chat Bool :=
  (fun st => st.next (fun _ => "0")
    (.serve (.handle 0 true true)))^[n]
      (answered.next (fun _ => "0") (.readFrame 1 "t" true))

/- The first one gets it. -/
def shown : Chat Bool :=
  (answering 6).next (fun _ => "0") (.deliver 0 10)

theorem reach_welcomed :
    Transition.Reach Opened (Step fun _ => "0") welcomed := by
  have hFirst :
      Transition.Reach Opened (Step fun _ => "0")
        (quiet.next (fun _ => "0") (.page 0 .onopen)) :=
    .step (.init ⟨start_quiet, fun _ => rfl⟩)
      ⟨.page 0 .onopen, rfl, rfl⟩
  have hSecond :=
    hFirst.step ⟨.page 1 .onopen, rfl, rfl⟩
  refine reach_serve (e := .task 0 0 true)
    (fun _ => ⟨trivial, trivial⟩) 11
    (hSecond.step ⟨.readFrame 0 "s" true, ?_, rfl⟩)
  intro _ m _ _
  refine ⟨rfl, fun k => ?_⟩
  change "s" ∉ []
  simp

/- Other channels are as they were. -/
theorem clients_welcomed
    {k : Nat}
    (hOther : k ≠ 0) :
    welcomed.traffic.clients k =
      quiet.traffic.clients k := by
  have hWelcomed :
      welcomed.traffic =
        (fun st => st.task (fun _ => "0") 0 0 true)^[11]
          (quiet.traffic.online 0 "111" "s") :=
    rfl
  rw [hWelcomed]
  refine Function.Iterate.rec
    (fun st : Traffic Bool =>
      st.clients k = quiet.traffic.clients k) ?_ ?_ 11
  · simp [Traffic.online, Traffic.setClient, hOther]
  · intro st hSame
    rw [Traffic.task_clients_ne _ _ hOther, hSame]

theorem only_welcomed : welcomed.Only firstPage := by
  intro k hUser
  have hPages :
      welcomed.pages =
        ((quiet.next (fun _ => "0") (.page 0 .onopen)).next
          (fun _ => "0") (.page 1 .onopen)).pages :=
    rfl
  have hFirst :
      (welcomed.pages k).user = (quiet.pages k).user := by
    rw [hPages]
    exact ((update_le _ (Page.next_le _ _) k).user).trans
      (update_le _ (Page.next_le _ _) k).user
  by_contra hOther
  have hNot : k ≠ 0 := hOther
  rw [hFirst] at hUser
  simp [quiet, hNot, firstPage] at hUser

theorem inPlace_welcomed :
    welcomed.traffic.InPlace firstPage where
  recorded :=
    ⟨⟨some "111", [⟨some "111", "s", { id := 2 }⟩],
      by decide⟩, by decide +kernel, by decide +kernel⟩
  held := ⟨⟨⟨0, true⟩, some "111", "s"⟩, by decide +kernel⟩
  home := by decide +kernel
  created := by decide +kernel
  connectHandler := by decide +kernel
  tasks k task hMem := by
    by_cases hFirst : k = 0
    · have hDone :
          (welcomed.traffic.clients 0).tasks =
            [⟨"111", .returned⟩] := by
        decide +kernel
      rw [hFirst, hDone, List.mem_singleton] at hMem
      rw [hMem]
      trivial
    · rw [clients_welcomed hFirst] at hMem
      cases hMem
  closings k pc hMem := by
    by_cases hFirst : k = 0
    · have hNone :
          (welcomed.traffic.clients 0).closings = [] := by
        decide +kernel
      rw [hFirst, hNone] at hMem
      cases hMem
    · rw [clients_welcomed hFirst] at hMem
      cases hMem
  handlings h hMem := by
    have hNone : welcomed.traffic.handlings.length = 0 := by
      decide +kernel
    rw [List.length_eq_zero_iff.mp hNone] at hMem
    cases hMem

/- The frame that is read has what was typed. -/
theorem fired_answered :
    FrameCodec.fired
        ((answered.pages 1).frames[answered.read 1]?).toList =
      [.channelRead
        (Page.data "222" "111" [72, 55296, 105])] := by
  decide +kernel

theorem conveying_shown :
    Transition.Reach (fun x => x = welcomed)
      (ConveyingStep (fun _ => "0") firstPage) shown := by
  have hTyped :
      Transition.Reach (fun x => x = welcomed)
        (ConveyingStep (fun _ => "0") firstPage)
        (welcomed.next (fun _ => "0")
          (.page 1 (.send [72, 55296, 105]))) :=
    .step (.init rfl)
      ⟨.page 1 (.send [72, 55296, 105]),
        (by decide +kernel :
          (Page.data (welcomed.pages 1).user
            (welcomed.pages 1).peer
              [72, 55296, 105]).toByteArray.length < 2 ^ 31),
        fun h => absurd h (by decide), rfl⟩
  have hAnswered :
      Transition.Reach (fun x => x = welcomed)
        (ConveyingStep (fun _ => "0") firstPage) answered :=
    hTyped.step
      ⟨.readFrame 1 "t" false, nofun, trivial, rfl⟩
  have hAllowed :
      answered.Allowed (.readFrame 1 "t" true) := by
    intro _ m hFired hOnline
    rw [fired_answered] at hFired
    cases hFired
    cases hOnline
  have hRead :
      Transition.Reach (fun x => x = welcomed)
        (ConveyingStep (fun _ => "0") firstPage)
        (answering 0) :=
    hAnswered.step
      ⟨.readFrame 1 "t" true, hAllowed, trivial,
        Function.iterate_zero_apply _ _⟩
  have hStep :
      ∀ n < 6,
        ConveyingStep (fun _ => "0") firstPage (answering n)
          (answering (n + 1)) := by
    intro n hLess
    refine ⟨.serve (.handle 0 true true),
      ⟨trivial, trivial⟩, Traffic.conveys_handle ?_,
      Function.iterate_succ_apply' _ _ _⟩
    revert n
    decide +kernel
  have hHandled :=
    (((((hRead.step (hStep 0 (by decide))).step
      (hStep 1 (by decide))).step (hStep 2 (by decide))).step
        (hStep 3 (by decide))).step
          (hStep 4 (by decide))).step (hStep 5 (by decide))
  exact hHandled.step
    ⟨.deliver 0 10, .inl (by decide +kernel), trivial, rfl⟩

/- The first page shows it, once. -/
theorem shown_once_shown :
    ∃ (got : List Model) (lines : List (List UInt16)),
      List.Forall₂ Makes got lines ∧
        (shown.pages firstPage.channel).responseText =
          (welcomed.pages firstPage.channel).responseText ++
            lines.flatMap
              (fun line => Page.newline :: line) ∧
        got.count
          (Page.data "222" firstPage.user
            [72, 55296, 105]) = 1 := by
  rcases shown_once reach_welcomed only_welcomed
    inPlace_welcomed conveying_shown with
    ⟨got, lines, _, hMakes, hText, hCount⟩
  refine ⟨got, lines, hMakes, hText, ?_⟩
  have hOnce := (hCount "222" [72, 55296, 105] _ rfl
    (by decide +kernel)).2
  have hAfter :
      (shown.outbox firstPage.channel).length = 0 ∧
        Account.total
            (Handling.left
              (Page.data "222" firstPage.user
                [72, 55296, 105]))
            shown.traffic.handlings = 0 ∧
          shown.traffic.inFlight.length = 0 ∧
            shown.traffic.received.count
              (Page.data "222" firstPage.user
                [72, 55296, 105]) = 1 := by
    decide +kernel
  have hBefore :
      (welcomed.outbox firstPage.channel).length = 0 ∧
        welcomed.traffic.handlings.length = 0 ∧
          welcomed.traffic.inFlight.length = 0 ∧
            welcomed.traffic.received.length = 0 := by
    decide +kernel
  revert hOnce hAfter hBefore
  -- the states themselves need not be computed again
  generalize shown = after
  generalize welcomed = before
  rintro hOnce ⟨hSent, hLeft, hGone, hRead⟩
    ⟨hOutbox, hNone, hFlight, hUnread⟩
  rw [List.length_eq_zero_iff.mp hSent, hLeft,
    List.length_eq_zero_iff.mp hGone, hRead,
    List.length_eq_zero_iff.mp hOutbox,
    List.length_eq_zero_iff.mp hNone,
    List.length_eq_zero_iff.mp hFlight,
    List.length_eq_zero_iff.mp hUnread] at hOnce
  simpa [Account.total] using hOnce

end Chat

end NettyCluster
