import LoongNvr.Network.WebSocketServer
import LoongNvr.Support.Json
import LoongNvr.Support.Runs
import Mathlib.Data.Fintype.EquivFin

/-!
# Network — TopicSubscriptions

The topics of a connection of `WebSocketServer`.  A subscribe message clears them and inserts those
of its array one by one; an element that is no string throws, and the exception is swallowed.  The
reader thread does so under no lock that `Broadcast` takes: the clearing and each insertion are
steps of their own, and a `Broadcast` may come between any two.  The JSON library's two directions
are parameters.

* `broadcast`: what one connection gets of a `Broadcast`.
* `readStep`: the next step of the reader thread.
* `settle_takeUp`: a frame no `Broadcast` comes into is handled as `handleFrame` has it.
* `Served`: the connection gets the broadcasts of the topics its last well-formed subscribe message
  lists.
* `served_iff`: it does all along a run exactly if every malformed message lists, before the element
  that is no string, the topics subscribed to as it comes, and no `Broadcast` comes while there is a
  new topic still to be inserted.
-/

namespace LoongNvr.Network
open Support

namespace WebSocketServer

/-! ### Messages -/

/-- `j["subscribe"]`, if `j` contains it and it is an array. -/
def subscribeArray (j : Json) : Option (List Json) :=
  match j.member "subscribe" with
  | some (.arr items) => some items
  | _ => none

/-- The loop over the array, up to the element that throws. -/
def insertTopics (topics : List String) : List Json → List String
  | [] => topics
  | t :: ts =>
      match t.getStr with
      | some topic => insertTopics (topics ++ [topic]) ts
      | none => topics

variable (parse : List UInt8 → Option Json) (dump : Json → List UInt8)

/-- The topics after a text message; `none` if it leaves them as they are. -/
def subscription (payload : List UInt8) : Option (List String) :=
  ((parse payload).bind subscribeArray).map (insertTopics [])

def handleText (payload : List UInt8) (conn : WsConnection) : WsConnection :=
  handleFrame (subscription parse) conn { payload := payload }

def broadcast (topic : String) (data : Json) (conn : WsConnection) : WsConnection :=
  let frame := buildTextFrame (dump (.obj [("data", data), ("topic", .str topic)]))
  if !conn.active then conn
  else if conn.subscribedTopics ≠ [] ∧ topic ∉ conn.subscribedTopics then conn
  else sendFrame frame conn

/-! ### What a client asked for -/

/-- The topics of a well-formed subscribe message. -/
def wellFormed (payload : List UInt8) : Option (List String) :=
  ((parse payload).bind subscribeArray).bind (·.mapM Json.getStr)

/-- A connection and its reader thread: the text frames it has still to take up, what the loop over
the array of the last one has still to insert, and the topics of the last well-formed subscribe
message taken up. -/
structure Subscriber where
  conn : WsConnection := {}
  unread : List (List UInt8) := []
  toInsert : List Json := []
  last : Option (List String) := none

/-- A text frame is parsed, and the topics are cleared if it has an array. -/
def takeUp (payload : List UInt8) (s : Subscriber) : Subscriber :=
  let last := (wellFormed parse payload).or s.last
  match (parse payload).bind subscribeArray with
  | some items =>
      { s with conn := { s.conn with subscribedTopics := [] }, toInsert := items, last := last }
  | none => { s with last := last }

/-- One turn of the loop over the array; `get` throws out of it. -/
def insertNext (t : Json) (ts : List Json) (s : Subscriber) : Subscriber :=
  match t.getStr with
  | some topic =>
      { s with
        conn := { s.conn with subscribedTopics := s.conn.subscribedTopics ++ [topic] }
        toInsert := ts }
  | none => { s with toInsert := [] }

/-- The next step of the reader thread. -/
def readStep (s : Subscriber) : Subscriber :=
  match s.toInsert, s.unread with
  | t :: ts, _ => insertNext t ts s
  | [], payload :: unread => takeUp parse payload { s with unread := unread }
  | [], [] => s

/-- The reader thread and those that call `Broadcast` take turns in any order. -/
inductive TopicAction
  | read
  | broadcast (topic : String) (data : Json)

def topicStep (s : Subscriber) : TopicAction → Subscriber
  | .read => readStep parse s
  | .broadcast topic data => { s with conn := broadcast dump topic data s.conn }

/-- Where the reader thread comes by itself with the array it is at. -/
def settle (s : Subscriber) : Subscriber :=
  { s with
    conn :=
      { s.conn with subscribedTopics := insertTopics s.conn.subscribedTopics s.toInsert }
    toInsert := [] }

/-- No topics asked for, or an empty list, stand for every topic. -/
def Wanted (last : Option (List String)) (topic : String) : Prop :=
  ∀ topics ∈ last, topics = [] ∨ topic ∈ topics

/-- A `Broadcast` is sent exactly if its topic is wanted. -/
def Served (s : Subscriber) : Prop :=
  ∀ topic data, (broadcast dump topic data s.conn).sent ≠ s.conn.sent ↔ Wanted s.last topic

/-- Whatever is broadcast at this point of a run, or once the frame just taken up has been handled,
is sent exactly if it is wanted. -/
def Serves (s : Subscriber) : TopicAction → Prop
  | .read => Served dump (settle (readStep parse s))
  | .broadcast _ _ => Served dump s

/-- A malformed message lists, before what is no string, the topics that are there, and what is
still to be inserted as a `Broadcast` comes is there. -/
def KeepsTopics (s : Subscriber) : TopicAction → Prop
  | .read =>
      match s.toInsert, s.unread with
      | [], payload :: _ =>
          wellFormed parse payload = none → ∀ topics ∈ subscription parse payload,
            topics ⊆ s.conn.subscribedTopics ∧ s.conn.subscribedTopics ⊆ topics
      | _, _ => True
  | .broadcast _ _ => insertTopics [] s.toInsert ⊆ s.conn.subscribedTopics

instance : ∀ (s : Subscriber) (a : TopicAction), Decidable (KeepsTopics parse s a)
  | ⟨conn, payload :: _, [], _⟩, .read =>
      inferInstanceAs <| Decidable <|
        wellFormed parse payload = none → ∀ topics ∈ subscription parse payload,
          topics ⊆ conn.subscribedTopics ∧ conn.subscribedTopics ⊆ topics
  | ⟨_, [], [], _⟩, .read => .isTrue trivial
  | ⟨_, _, _ :: _, _⟩, .read => .isTrue trivial
  | s, .broadcast _ _ =>
      inferInstanceAs (Decidable (insertTopics [] s.toInsert ⊆ s.conn.subscribedTopics))

variable {parse dump}

theorem insertTopics_eq_append (topics : List String) (items : List Json) :
    insertTopics topics items = topics ++ insertTopics [] items := by
  induction items generalizing topics with
  | nil => exact (List.append_nil topics).symm
  | cons t ts ih =>
      rw [insertTopics, insertTopics]
      cases t.getStr with
      | none => exact (List.append_nil topics).symm
      | some topic =>
          simp only
          rw [ih (topics ++ [topic]), ih ([] ++ [topic]), List.nil_append, List.append_assoc]

theorem insertTopics_of_mapM {items : List Json} {strs : List String}
    (h : items.mapM Json.getStr = some strs) (topics : List String) :
    insertTopics topics items = topics ++ strs := by
  induction items generalizing topics strs with
  | nil =>
      obtain rfl := Option.some.inj h
      exact (List.append_nil topics).symm
  | cons t ts ih =>
      rw [List.mapM_cons] at h
      obtain ⟨topic, htopic, h⟩ := Option.bind_eq_some_iff.mp h
      obtain ⟨more, hmore, h⟩ := Option.bind_eq_some_iff.mp h
      obtain rfl := Option.some.inj h
      rw [insertTopics, htopic]
      exact (ih hmore _).trans (List.append_assoc _ _ _)

/-- A well-formed message is subscribed to as it says. -/
theorem subscription_of_wellFormed {payload : List UInt8} {topics : List String}
    (h : wellFormed parse payload = some topics) : subscription parse payload = some topics := by
  obtain ⟨items, hitems, htopics⟩ := Option.bind_eq_some_iff.mp h
  rw [subscription, hitems, Option.map_some, insertTopics_of_mapM htopics, List.nil_append]

/-! ### What is sent -/

theorem broadcast_sends_iff {conn : WsConnection} (hactive : conn.active = true) (topic : String)
    (data : Json) :
    (broadcast dump topic data conn).sent ≠ conn.sent ↔
      conn.subscribedTopics = [] ∨ topic ∈ conn.subscribedTopics := by
  rw [broadcast, if_neg (by simp [hactive])]
  by_cases hskip : conn.subscribedTopics ≠ [] ∧ topic ∉ conn.subscribedTopics
  · rw [if_pos hskip]
    exact iff_of_false (fun h => h rfl) fun h => h.elim hskip.1 hskip.2
  · rw [if_neg hskip, sendFrame, if_pos hactive]
    refine iff_of_true (by simp) ?_
    rwa [not_and_or, not_not, not_not] at hskip

/-- A broadcast changes nothing but what was sent. -/
theorem broadcast_eq (dump : Json → List UInt8) (topic : String) (data : Json)
    (conn : WsConnection) :
    ∃ sent, broadcast dump topic data conn = { conn with sent := sent } := by
  simp only [broadcast, sendFrame]
  split
  · exact ⟨conn.sent, rfl⟩
  · split
    · exact ⟨conn.sent, rfl⟩
    · split
      · exact ⟨_, rfl⟩
      · exact ⟨conn.sent, rfl⟩

@[simp] theorem broadcast_subscribedTopics (topic : String) (data : Json) (conn : WsConnection) :
    (broadcast dump topic data conn).subscribedTopics = conn.subscribedTopics := by
  obtain ⟨sent, h⟩ := broadcast_eq dump topic data conn
  rw [h]

@[simp] theorem broadcast_active (topic : String) (data : Json) (conn : WsConnection) :
    (broadcast dump topic data conn).active = conn.active := by
  obtain ⟨sent, h⟩ := broadcast_eq dump topic data conn
  rw [h]

/-- A text message changes nothing but the topics. -/
theorem handleText_eq (payload : List UInt8) (conn : WsConnection) :
    handleText parse payload conn =
      { conn with
        subscribedTopics := (subscription parse payload).getD conn.subscribedTopics } := by
  rw [handleText, handleFrame]
  cases subscription parse payload with
  | none => rfl
  | some topics => rfl

@[simp] theorem handleText_subscribedTopics (payload : List UInt8) (conn : WsConnection) :
    (handleText parse payload conn).subscribedTopics =
      (subscription parse payload).getD conn.subscribedTopics := by
  rw [handleText_eq]

@[simp] theorem handleText_active (payload : List UInt8) (conn : WsConnection) :
    (handleText parse payload conn).active = conn.active := by
  rw [handleText_eq]

/-! ### The reader thread by itself -/

theorem readStep_of_cons {s : Subscriber} {t : Json} {ts : List Json} (h : s.toInsert = t :: ts) :
    readStep parse s = insertNext t ts s := by
  rw [readStep, h]

theorem readStep_of_nil {s : Subscriber} {payload : List UInt8} {unread : List (List UInt8)}
    (h : s.toInsert = []) (hunread : s.unread = payload :: unread) :
    readStep parse s = takeUp parse payload { s with unread := unread } := by
  rw [readStep, h, hunread]

theorem readStep_idle {s : Subscriber} (h : s.toInsert = []) (hunread : s.unread = []) :
    readStep parse s = s := by
  rw [readStep, h, hunread]

/-- A turn of the loop does not change where the loop ends. -/
theorem settle_readStep {s : Subscriber} {t : Json} {ts : List Json} (h : s.toInsert = t :: ts) :
    settle (readStep parse s) = settle s := by
  rw [readStep_of_cons h, insertNext, settle, settle, h, insertTopics]
  cases t.getStr with
  | none => rfl
  | some topic => rfl

/-- **A frame** that is taken up and handled to its end does to the connection what `handleFrame`
does at once. -/
theorem settle_takeUp (payload : List UInt8) {s : Subscriber} (h : s.toInsert = []) :
    settle (takeUp parse payload s) =
      { s with
        conn := handleText parse payload s.conn
        last := (wellFormed parse payload).or s.last } := by
  rw [handleText_eq, subscription, takeUp, settle]
  cases (parse payload).bind subscribeArray with
  | none => simp [h, insertTopics]
  | some items => simp [h]

/-- The reader thread gets there. -/
theorem exists_iterate_readStep (parse : List UInt8 → Option Json) (s : Subscriber) :
    ∃ n, (readStep parse)^[n] s = settle s := by
  induction hitems : s.toInsert generalizing s with
  | nil =>
      refine ⟨0, ?_⟩
      rw [Function.iterate_zero, id_eq, settle, hitems, insertTopics, ← hitems]
  | cons t ts ih =>
      have hturn : settle (readStep parse s) = settle s := settle_readStep hitems
      rw [← hturn, readStep_of_cons hitems, insertNext]
      cases hstr : t.getStr with
      | none =>
          refine ⟨1, ?_⟩
          rw [Function.iterate_one, readStep_of_cons hitems, insertNext, hstr]
          rfl
      | some topic =>
          obtain ⟨n, hn⟩ := ih
            { s with
              conn := { s.conn with subscribedTopics := s.conn.subscribedTopics ++ [topic] }
              toInsert := ts } rfl
          refine ⟨n + 1, ?_⟩
          rw [Function.iterate_succ_apply, readStep_of_cons hitems, insertNext, hstr]
          exact hn

theorem readStep_active (s : Subscriber) :
    (readStep parse s).conn.active = s.conn.active := by
  rw [readStep]
  split
  · rw [insertNext]
    split <;> rfl
  · rw [takeUp]
    split <;> rfl
  · rfl

/-! ### What is asked for -/

/-- The connection has the topics that were asked for. -/
def SameTopics (s : Subscriber) : Prop :=
  ∀ topic, topic ∈ s.conn.subscribedTopics ↔ topic ∈ s.last.getD []

/-- There are more strings than any list has. -/
theorem exists_notMem (topics : List String) : ∃ topic, topic ∉ topics := by
  have hinfinite : Infinite String :=
    Infinite.of_injective (fun n => String.ofList (List.replicate n 'a')) fun m n h => by
      have hlength := congrArg (fun topic => topic.toList.length) h
      simpa using hlength
  obtain ⟨topic, htopic⟩ := Infinite.exists_notMem_finset topics.toFinset
  exact ⟨topic, fun hmem => htopic (List.mem_toFinset.mpr hmem)⟩

/-- Two lists of topics stand for the same broadcasts only if they have the same topics: there is
always one that neither lists. -/
theorem same_of_forall {topics topics' : List String}
    (h : ∀ topic, topics = [] ∨ topic ∈ topics ↔ topics' = [] ∨ topic ∈ topics') (topic : String) :
    topic ∈ topics ↔ topic ∈ topics' := by
  obtain ⟨other, hother⟩ := exists_notMem (topics ++ topics')
  rw [List.mem_append, not_or] at hother
  have hempty : topics = [] ↔ topics' = [] := by
    simpa [hother.1, hother.2] using h other
  by_cases hnil : topics = []
  · rw [hnil, hempty.mp hnil]
  · have hnil' : topics' ≠ [] := fun hnil' => hnil (hempty.mpr hnil')
    simpa [hnil, hnil'] using h topic

theorem wanted_iff {last : Option (List String)} {topic : String} :
    Wanted last topic ↔ last.getD [] = [] ∨ topic ∈ last.getD [] := by
  cases last with
  | none => simp [Wanted]
  | some topics => simp [Wanted]

theorem served_iff_sameTopics {s : Subscriber} (hactive : s.conn.active = true) :
    Served dump s ↔ SameTopics s := by
  constructor
  · intro h
    refine same_of_forall fun topic => ?_
    rw [← @broadcast_sends_iff dump _ hactive topic .null, h topic .null, wanted_iff]
  · intro h topic data
    rw [broadcast_sends_iff hactive, wanted_iff, h topic]
    have hempty : s.conn.subscribedTopics = [] ↔ s.last.getD [] = [] := by
      rw [List.eq_nil_iff_forall_not_mem, List.eq_nil_iff_forall_not_mem]
      exact forall_congr' fun topic => (h topic).not
    rw [hempty]

/-- What is there will be there: nothing is missing as soon as all that is to be inserted is. -/
theorem sameTopics_iff_subset {s : Subscriber} (h : SameTopics (settle s)) :
    SameTopics s ↔ insertTopics [] s.toInsert ⊆ s.conn.subscribedTopics := by
  have hmem (topic : String) : topic ∈ s.last.getD [] ↔
      topic ∈ s.conn.subscribedTopics ∨ topic ∈ insertTopics [] s.toInsert := by
    rw [← List.mem_append, ← insertTopics_eq_append]
    exact (h topic).symm
  constructor
  · intro hsame topic htopic
    exact (hsame topic).mpr ((hmem topic).mpr (.inr htopic))
  · intro hsubset topic
    rw [hmem topic]
    exact ⟨.inl, fun h => h.elim id fun hnew => hsubset hnew⟩

/-- Of a frame taken up nothing is amiss exactly if it is well formed or repeats the topics. -/
theorem sameTopics_handleText_iff {s : Subscriber} (h : SameTopics s) (payload : List UInt8) :
    SameTopics
        { s with
          conn := handleText parse payload s.conn
          last := (wellFormed parse payload).or s.last } ↔
      (wellFormed parse payload = none → ∀ topics ∈ subscription parse payload,
        topics ⊆ s.conn.subscribedTopics ∧ s.conn.subscribedTopics ⊆ topics) := by
  cases hwell : wellFormed parse payload with
  | some topics =>
      refine iff_of_true (fun topic => ?_) fun hnone => absurd hnone (by simp)
      simp [subscription_of_wellFormed hwell]
  | none =>
      simp only [forall_const]
      cases hsub : subscription parse payload with
      | none => simpa [SameTopics, hsub] using h
      | some topics =>
          -- the old topics are what is asked for still
          simp only [SameTopics, handleText_subscribedTopics, hsub, Option.getD_some,
            Option.none_or, Option.mem_some_iff, forall_eq']
          constructor
          · intro hsame
            exact ⟨fun topic htopic => (h topic).mpr ((hsame topic).mp htopic),
              fun topic htopic => (hsame topic).mpr ((h topic).mp htopic)⟩
          · rintro ⟨hsub, hsup⟩ topic
            exact ⟨fun htopic => (h topic).mp (hsub htopic),
              fun htopic => hsup ((h topic).mpr htopic)⟩

/-! ### Runs -/

/-- The connection is open, and its reader thread brings it the topics that were asked for. -/
structure Settled (s : Subscriber) : Prop where
  same : SameTopics (settle s)
  active : s.conn.active = true

/-- **One step** serves what is wanted exactly if it keeps the topics. -/
theorem Settled.serves_iff {s : Subscriber} (h : Settled s) (a : TopicAction) :
    Serves parse dump s a ↔ KeepsTopics parse s a := by
  obtain ⟨h, hactive⟩ := h
  cases a with
  | broadcast topic data =>
      exact (served_iff_sameTopics hactive).trans (sameTopics_iff_subset h)
  | read =>
      have hstill : (settle (readStep parse s)).conn.active = true :=
        (readStep_active s).trans hactive
      refine (served_iff_sameTopics hstill).trans ?_
      cases hitems : s.toInsert with
      | cons t ts =>
          rw [settle_readStep hitems]
          simp only [KeepsTopics, hitems, iff_true]
          exact h
      | nil =>
          have hsame : SameTopics s := by
            rwa [settle, hitems, insertTopics, ← hitems] at h
          cases hunread : s.unread with
          | nil =>
              rw [readStep_idle hitems hunread]
              simp only [KeepsTopics, hitems, hunread, iff_true]
              exact h
          | cons payload unread =>
              rw [readStep_of_nil hitems hunread,
                settle_takeUp payload (s := { s with unread := unread }) hitems]
              simp only [KeepsTopics, hitems, hunread]
              exact sameTopics_handleText_iff hsame payload

/-- and then it leaves the reader thread to bring what is asked for. -/
theorem Settled.step {s : Subscriber} {a : TopicAction} (h : Settled s)
    (hkeeps : KeepsTopics parse s a) : Settled (topicStep parse dump s a) := by
  cases a with
  | broadcast topic data =>
      refine ⟨?_, by simpa [topicStep] using h.active⟩
      simpa [SameTopics, settle, topicStep] using h.same
  | read =>
      have hstill : (settle (readStep parse s)).conn.active = true :=
        (readStep_active s).trans h.active
      have hserved : Served dump (settle (readStep parse s)) := (h.serves_iff .read).mpr hkeeps
      exact ⟨(served_iff_sameTopics hstill).mp hserved, hstill⟩

/-- **Broadcasts follow the subscription** along a run exactly if no malformed message lists other
topics, before what is no string, than those subscribed to, and no `Broadcast` comes while a new
topic is still to be inserted. -/
theorem served_iff (parse : List UInt8 → Option Json) (dump : Json → List UInt8)
    (frames : List (List UInt8)) (actions : List TopicAction) :
    EveryStep (topicStep parse dump) (Serves parse dump) { unread := frames } actions ↔
      EveryStep (topicStep parse dump) (KeepsTopics parse) { unread := frames } actions := by
  have hstart : Settled { unread := frames } := ⟨fun _ => .rfl, rfl⟩
  constructor
  · exact EveryStep.of_invariant (fun s a hs h => hs.step ((hs.serves_iff a).mp h))
      (fun s a hs => (hs.serves_iff a).mp) hstart
  · exact EveryStep.of_invariant (fun s a hs => hs.step) (fun s a hs => (hs.serves_iff a).mpr)
      hstart

/-- A JSON library that reads two texts. -/
def twoMessages (payload : List UInt8) : Option Json :=
  if payload = [1] then some (.obj [("subscribe", .arr [.str "alarm"])])
  else some (.obj [("subscribe", .arr [.num 5, .str "alarm"])])

/-- A client asks for alarms, then sends an array of a number and a string. -/
def alarmsThenNumber : List TopicAction :=
  [.read, .read, .read, .read, .broadcast "system_status" .null]

/-- A client asks for alarms twice, and a `Broadcast` comes before the second array is inserted. -/
def alarmsAgain : List TopicAction := [.read, .read, .read, .broadcast "system_status" .null]

/-- The malformed message clears the topics, and the client gets every topic; so it does while a
message that asks for the same again is handled. -/
theorem served_refuted :
    ¬ EveryStep (topicStep twoMessages fun _ => []) (Serves twoMessages fun _ => [])
        { unread := [[1], [2]] } alarmsThenNumber ∧
      ¬ EveryStep (topicStep twoMessages fun _ => []) (Serves twoMessages fun _ => [])
        { unread := [[1], [1]] } alarmsAgain := by
  refine ⟨fun h => ?_, fun h => ?_⟩
  · have hsent := (h.2.2.2.2.1 "system_status" .null).mp (by decide)
    exact absurd (hsent ["alarm"] rfl) (by decide)
  · have hsent := (h.2.2.2.1 "system_status" .null).mp (by decide)
    exact absurd (hsent ["alarm"] rfl) (by decide)

end WebSocketServer

end LoongNvr.Network
