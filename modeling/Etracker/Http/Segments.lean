import Etracker.Http.Model

namespace Etracker.Http

open Foundation.CString

/-- A complete request without a body. -/
structure GetRequest where
  text : List UInt8
  get : startsWith (ascii "GET ") text = true
  short : text.length < threadClientTcpReceivedMessageLength
  noZero : 0 ∉ text
  ends : strstr text blankLine = some (text.length - blankLine.length)

/-- The segments that arrive before the worker wakes up once. It is not woken for nothing. -/
structure Arrival where
  segments : List (List UInt8)
  turn : Turn
  some : segments.flatten ≠ []

def Arrival.events (arrival : Arrival) : List Event :=
  arrival.segments.map Event.arrives ++ [.wakes arrival.turn]

def bytes (schedule : List Arrival) : List UInt8 :=
  schedule.flatMap fun arrival => arrival.segments.flatten

def events (schedule : List Arrival) : List Event := schedule.flatMap Arrival.events

/-- Fewer than 4000 bytes are unread whenever the worker wakes up. -/
def Room (connection : Connection) : List Arrival → Prop
  | [] => True
  | arrival :: schedule =>
      (connection.unread ++ arrival.segments.flatten).length < threadClientTcpReceivedMessageLength ∧
        Room (connection.run arrival.events) schedule

/-- The end of every request is the end of what arrives before some wake-up, and only the
last request may make a websocket of the connection. -/
structure EndsInTime (schedule : List Arrival) (texts : List (List UInt8)) : Prop where
  grouped : ∃ groups : List (List Arrival), schedule = groups.flatten ∧ groups.map bytes = texts
  http : ∀ text ∈ texts.dropLast, isWebsocket text = false

def requests (connection : Connection) : List (Option (List UInt8)) :=
  connection.answers.map Answer.request

theorem GetRequest.strstr_part (request : GetRequest) {text behind : List UInt8}
    (split : text ++ behind = request.text) (missing : behind ≠ []) :
    strstr (cString text) blankLine = none := by
  have noZero : 0 ∉ text := by
    intro zero
    apply request.noZero
    rw [← split]
    exact List.mem_append_left _ zero
  rw [cString_of_not_mem noZero]
  by_contra some
  obtain ⟨offset, found⟩ := Option.ne_none_iff_exists'.mp some
  have within := strstr_le found
  have whole := strstr_append found behind
  rw [split, request.ends] at whole
  have same : request.text.length - blankLine.length = offset := Option.some.inj whole
  have length : text.length + behind.length = request.text.length := by
    rw [← split, List.length_append]
  have more : 0 < behind.length := List.length_pos_iff.mpr missing
  omega

theorem GetRequest.strstr_text (request : GetRequest) :
    strstr (cString request.text) blankLine ≠ none := by
  rw [cString_of_not_mem request.noZero, request.ends]
  exact Option.some_ne_none _

namespace Connection

variable (connection : Connection)

theorem run_append (first second : List Event) :
    connection.run (first ++ second) = (connection.run first).run second :=
  List.foldl_append

theorem run_arrives (opened : connection.closed = false) (segments : List (List UInt8)) :
    connection.run (segments.map .arrives) =
      { connection with unread := connection.unread ++ segments.flatten } := by
  induction segments generalizing connection with
  | nil =>
      rw [List.flatten_nil, List.append_nil]
      rfl
  | cons segment segments ih =>
      have first : connection.step (.arrives segment) =
          { connection with unread := connection.unread ++ segment } := by
        simp only [step, opened, Bool.false_eq_true, if_false]
      calc
        connection.run ((segment :: segments).map .arrives) =
            (connection.step (.arrives segment)).run (segments.map .arrives) := rfl
        _ = _ := by
          rw [first, ih { connection with unread := connection.unread ++ segment } opened,
            List.flatten_cons, List.append_assoc]

theorem run_arrival (opened : connection.closed = false) (arrival : Arrival) :
    connection.run arrival.events =
      Connection.processRead
        { connection with unread := connection.unread ++ arrival.segments.flatten }
        arrival.turn := by
  rw [Arrival.events, run_append, run_arrives connection opened]
  calc
    _ = Connection.step { connection with
          unread := connection.unread ++ arrival.segments.flatten } (.wakes arrival.turn) := rfl
    _ = _ := by simp only [step, opened, Bool.false_eq_true, if_false]

theorem run_closed (closed : connection.closed = true) (events : List Event) :
    connection.run events = connection := by
  induction events with
  | nil => rfl
  | cons event events ih =>
      have stays : connection.step event = connection := if_pos closed
      calc
        connection.run (event :: events) = (connection.step event).run events := rfl
        _ = connection := by rw [stays, ih]

theorem run_websocket (websocket : connection.websocket = true) {schedule : List Arrival}
    (room : Room connection schedule) :
    (connection.run (events schedule)).answers = connection.answers := by
  cases closed : connection.closed with
  | true => rw [connection.run_closed closed]
  | false =>
      induction schedule generalizing connection with
      | nil => rfl
      | cons arrival schedule ih =>
          obtain ⟨short, room⟩ := room
          have woken : connection.run arrival.events = { connection with unread := [] } := by
            rw [connection.run_arrival closed]
            exact processRead_websocket _ _ websocket short (List.append_ne_nil_of_right_ne_nil _ arrival.some)
          rw [events, List.flatMap_cons, run_append, woken]
          rw [woken] at room
          exact ih { connection with unread := [] } websocket room closed

theorem answers_prefix_run (events : List Event) :
    connection.answers <+: (connection.run events).answers := by
  induction events generalizing connection with
  | nil => exact List.prefix_rfl
  | cons event events ih => exact (connection.answers_prefix_step event).trans (ih _)

end Connection

theorem bytes_cons (arrival : Arrival) (schedule : List Arrival) :
    bytes (arrival :: schedule) = arrival.segments.flatten ++ bytes schedule :=
  List.flatMap_cons

theorem bytes_cons_ne_nil (arrival : Arrival) (schedule : List Arrival) :
    bytes (arrival :: schedule) ≠ [] := by
  rw [bytes_cons]
  exact List.append_ne_nil_of_left_ne_nil arrival.some _

theorem eq_nil_of_bytes {schedule : List Arrival} (none : bytes schedule = []) : schedule = [] := by
  cases schedule with
  | nil => rfl
  | cons arrival schedule => exact absurd none (bytes_cons_ne_nil arrival schedule)

theorem events_cons (arrival : Arrival) (schedule : List Arrival) :
    events (arrival :: schedule) = arrival.events ++ events schedule :=
  List.flatMap_cons

theorem GetRequest.text_ne_nil (request : GetRequest) : request.text ≠ [] := by
  intro empty
  have get := request.get
  rw [empty] at get
  exact nomatch get

abbrev waiting (unread : List UInt8) (answers : List Answer) : Connection :=
  ⟨unread, false, false, answers⟩

section Aligned

variable {request : GetRequest} {unread : List UInt8} {answers : List Answer}

theorem run_last {arrival : Arrival} (whole : unread ++ arrival.segments.flatten = request.text)
    (kept : canKeepAlive arrival.turn.keepAlive request.text = true) :
    (waiting unread answers).run arrival.events =
      ⟨[], isWebsocket request.text, false,
        answers ++ [arrival.turn.send (some request.text) false]⟩ := by
  have complete : (waiting request.text answers).request = some request.text :=
    if_pos ⟨request.short, rfl, request.strstr_text⟩
  have read := Connection.processRead_request _ arrival.turn complete
  dsimp only at read
  rw [if_pos (.inl kept)] at read
  rw [Connection.run_arrival _ rfl, whole]
  exact read

theorem run_partly {arrival : Arrival} {behind : List UInt8}
    (whole : unread ++ arrival.segments.flatten ++ behind = request.text) (missing : behind ≠ []) :
    (waiting unread answers).run arrival.events =
      waiting (unread ++ arrival.segments.flatten) answers := by
  have length : (unread ++ arrival.segments.flatten).length + behind.length =
      request.text.length := by
    rw [← whole]
    exact List.length_append.symm
  have short := request.short
  rw [Connection.run_arrival _ rfl]
  apply Connection.processRead_incomplete
  · rfl
  · dsimp only
    omega
  · exact List.append_ne_nil_of_right_ne_nil _ arrival.some
  · exact request.strstr_part whole missing

theorem run_group {group : List Arrival} (some : group ≠ [])
    (whole : unread ++ bytes group = request.text)
    (kept : ∀ arrival ∈ group, canKeepAlive arrival.turn.keepAlive request.text = true) :
    ∃ answer : Answer, answer.request = .some request.text ∧
      (waiting unread answers).run (events group) =
        ⟨[], isWebsocket request.text, false, answers ++ [answer]⟩ := by
  induction group generalizing unread with
  | nil => exact absurd rfl some
  | cons arrival group ih =>
      rw [bytes_cons, ← List.append_assoc] at whole
      rw [events_cons, Connection.run_append]
      cases group with
      | nil =>
          rw [show bytes [] = [] from rfl, List.append_nil] at whole
          rw [run_last whole (kept arrival List.mem_cons_self)]
          exact ⟨_, rfl, rfl⟩
      | cons next group =>
          rw [run_partly whole (bytes_cons_ne_nil next group)]
          exact ih (List.cons_ne_nil _ _) whole
            fun other member => kept other (List.mem_cons_of_mem _ member)

/-- Requests that end in time are answered one by one. -/
theorem answered_of_grouped {groups : List (List Arrival)} {sent : List GetRequest}
    (grouped : groups.map bytes = sent.map GetRequest.text)
    (http : ∀ text ∈ (sent.map GetRequest.text).dropLast, isWebsocket text = false)
    (kept : ∀ arrival ∈ groups.flatten, ∀ request ∈ sent,
      canKeepAlive arrival.turn.keepAlive request.text = true) :
    requests ((waiting [] answers).run (events groups.flatten)) =
      answers.map Answer.request ++ sent.map fun request => some request.text := by
  induction sent generalizing groups answers with
  | nil =>
      rw [List.map_nil, List.map_eq_nil_iff] at grouped
      rw [grouped, List.map_nil, List.append_nil]
      rfl
  | cons request sent ih =>
      cases groups with
      | nil => exact nomatch grouped
      | cons group groups =>
          rw [List.map_cons, List.map_cons, List.cons.injEq] at grouped
          obtain ⟨whole, grouped⟩ := grouped
          have some : group ≠ [] := by
            rintro rfl
            exact request.text_ne_nil whole.symm
          rw [List.flatten_cons] at kept ⊢
          obtain ⟨answer, same, run⟩ := @run_group request [] answers group some
            whole fun arrival member =>
              kept arrival (List.mem_append_left _ member) request List.mem_cons_self
          rw [show events (group ++ groups.flatten) = events group ++ events groups.flatten from
            List.flatMap_append, Connection.run_append, run]
          cases sent with
          | nil =>
              rw [List.map_nil, List.map_eq_nil_iff] at grouped
              rw [grouped]
              simp only [requests, events, Connection.run, List.flatten_nil, List.flatMap_nil,
                List.foldl_nil, List.map_append, List.map_cons, List.map_nil, same]
          | cons next sent =>
              have stays : isWebsocket request.text = false := http request.text List.mem_cons_self
              rw [stays, ih grouped
                (fun text member => http text (List.mem_cons_of_mem _ member))
                (fun arrival member request among =>
                  kept arrival (List.mem_append_right _ member) request
                    (List.mem_cons_of_mem _ among))]
              simp only [List.map_append, List.map_cons, List.map_nil, same, List.append_assoc,
                List.singleton_append]

end Aligned

/-- The first group completes what is unread. -/
def Divided (unread : List UInt8) (schedule : List Arrival) : List (List UInt8) → Prop
  | [] => schedule = []
  | text :: texts => ∃ (group : List Arrival) (groups : List (List Arrival)),
      schedule = group ++ groups.flatten ∧
      unread ++ bytes group = text ∧ groups.map bytes = texts

theorem Divided.grouped {schedule : List Arrival} {texts : List (List UInt8)}
    (divided : Divided [] schedule texts) :
    ∃ groups : List (List Arrival), schedule = groups.flatten ∧ groups.map bytes = texts := by
  cases texts with
  | nil => exact ⟨[], divided, rfl⟩
  | cons text texts =>
      obtain ⟨group, groups, whole, first, rest⟩ := divided
      refine ⟨group :: groups, whole, ?_⟩
      rw [List.map_cons, rest, ← first, List.nil_append]

theorem Divided.before {arrival : Arrival} {unread : List UInt8} {schedule : List Arrival}
    {text : List UInt8} {texts : List (List UInt8)}
    (divided : Divided (unread ++ arrival.segments.flatten) schedule (text :: texts)) :
    Divided unread (arrival :: schedule) (text :: texts) := by
  obtain ⟨group, groups, whole, first, rest⟩ := divided
  refine ⟨arrival :: group, groups, ?_, ?_, rest⟩
  · rw [whole, List.cons_append]
  · rw [bytes_cons, ← List.append_assoc, first]

theorem Divided.single {arrival : Arrival} {unread : List UInt8} {schedule : List Arrival}
    {texts : List (List UInt8)} (divided : Divided [] schedule texts) :
    Divided unread (arrival :: schedule) ((unread ++ arrival.segments.flatten) :: texts) := by
  obtain ⟨groups, whole, rest⟩ := divided.grouped
  refine ⟨[arrival], groups, ?_, ?_, rest⟩
  · rw [whole]
    rfl
  · rw [bytes_cons]
    simp only [bytes, List.flatMap_nil, List.append_nil]

theorem first_answered {connection : Connection} {answers : List Answer} {answer : Answer}
    {text : List UInt8} {texts : List (List UInt8)} (same : answer.request = some text)
    (before : answers ++ [answer] <+: connection.answers)
    (answered : requests connection = answers.map Answer.request ++ texts.map some) :
    ∃ rest, texts = text :: rest ∧
      requests connection = (answers ++ [answer]).map Answer.request ++ rest.map some := by
  obtain ⟨later, whole⟩ := before
  have tail : some text :: later.map Answer.request = texts.map some := by
    rw [requests, ← whole, List.map_append, List.map_append, List.append_assoc,
      List.append_right_inj, List.map_singleton, same] at answered
    exact answered
  cases texts with
  | nil => exact nomatch tail
  | cons first rest =>
      rw [List.map_cons, List.cons.injEq, Option.some.injEq] at tail
      obtain ⟨rfl, tail⟩ := tail
      refine ⟨rest, rfl, ?_⟩
      rw [requests, ← whole, List.map_append, tail]

theorem last_answered {connection : Connection} {schedule : List Arrival}
    {texts : List (List UInt8)} (ended : connection.websocket = true ∨ connection.closed = true)
    (room : Room connection schedule)
    (answered : requests (connection.run (events schedule)) =
      connection.answers.map Answer.request ++ texts.map some) : texts = [] := by
  have same : (connection.run (events schedule)).answers = connection.answers := by
    rcases ended with websocket | closed
    · exact connection.run_websocket websocket room
    · rw [connection.run_closed closed]
  rw [requests, same] at answered
  simpa using answered

theorem divided_last {arrival : Arrival} {schedule : List Arrival} {unread : List UInt8}
    {texts : List (List UInt8)} (none : texts = []) (stream : bytes schedule = texts.flatten) :
    Divided unread (arrival :: schedule) ((unread ++ arrival.segments.flatten) :: texts) ∧
      ∀ text ∈ ((unread ++ arrival.segments.flatten) :: texts).dropLast,
        isWebsocket text = false := by
  rw [none] at stream ⊢
  rw [eq_nil_of_bytes stream]
  exact ⟨Divided.single rfl, nofun⟩

/-- What has been answered is divided among the wake-ups. -/
theorem divided_of_answered {schedule : List Arrival} {unread : List UInt8}
    {answers : List Answer} {texts : List (List UInt8)}
    (room : Room (waiting unread answers) schedule)
    (stream : unread ++ bytes schedule = texts.flatten)
    (answered : requests ((waiting unread answers).run (events schedule)) =
      answers.map Answer.request ++ texts.map some) :
    Divided unread schedule texts ∧ ∀ text ∈ texts.dropLast, isWebsocket text = false := by
  induction schedule generalizing unread answers texts with
  | nil =>
      have none : texts = [] := by
        have same : answers.map Answer.request = answers.map Answer.request ++ texts.map some :=
          answered
        simpa using same
      rw [none]
      exact ⟨rfl, nofun⟩
  | cons arrival schedule ih =>
      obtain ⟨short, room⟩ := room
      have occupied : unread ++ arrival.segments.flatten ≠ [] :=
        List.append_ne_nil_of_right_ne_nil _ arrival.some
      rw [bytes_cons, ← List.append_assoc] at stream
      rw [events_cons, Connection.run_append] at answered
      have woken := Connection.run_arrival (waiting unread answers) rfl arrival
      -- A wake-up either leaves everything unread or answers the first request.
      by_cases missing : strstr (cString (unread ++ arrival.segments.flatten)) blankLine = none
      · rw [Connection.processRead_incomplete _ _ rfl short occupied missing] at woken
        rw [woken] at room answered
        obtain ⟨divided, http⟩ := ih room stream answered
        cases texts with
        | nil => exact absurd stream (List.append_ne_nil_of_left_ne_nil occupied _)
        | cons text texts => exact ⟨divided.before, http⟩
      · have complete : (waiting (unread ++ arrival.segments.flatten) answers).request =
            some (unread ++ arrival.segments.flatten) := if_pos ⟨short, rfl, missing⟩
        rw [Connection.processRead_request _ _ complete] at woken
        dsimp only at woken
        have after : ((waiting unread answers).run arrival.events).answers = answers ++
            [arrival.turn.send (some (unread ++ arrival.segments.flatten)) false] := by
          rw [woken]
          split_ifs <;> rfl
        have before := Connection.answers_prefix_run
          ((waiting unread answers).run arrival.events) (events schedule)
        rw [after] at before
        obtain ⟨rest, rfl, later⟩ := first_answered rfl before answered
        rw [List.flatten_cons, List.append_right_inj] at stream
        rw [← after] at later
        split_ifs at woken with keeps
        · cases http : isWebsocket (unread ++ arrival.segments.flatten) with
          | true =>
              have none := last_answered (.inl (by rw [woken]; exact http)) room later
              exact divided_last none stream
          | false =>
              rw [http] at woken
              rw [woken] at room later
              obtain ⟨divided, others⟩ := ih room stream later
              refine ⟨divided.single, ?_⟩
              intro text member
              cases rest with
              | nil => exact nomatch member
              | cons next rest =>
                  rcases List.mem_cons.mp member with rfl | member
                  · exact http
                  · exact others text member
        · have none := last_answered (.inr (by rw [woken]; rfl)) room later
          exact divided_last none stream

/-- Whatever the segments, the requests are answered one by one, in their order, exactly if
they end in time. -/
theorem requests_iff_endsInTime {sent : List GetRequest} {schedule : List Arrival}
    (stream : bytes schedule = (sent.map GetRequest.text).flatten)
    (kept : ∀ arrival ∈ schedule, ∀ request ∈ sent,
      canKeepAlive arrival.turn.keepAlive request.text = true)
    (room : Room .accept schedule) :
    requests (Connection.accept.run (events schedule)) = sent.map (fun request => some request.text) ↔
      EndsInTime schedule (sent.map GetRequest.text) := by
  constructor
  · intro answered
    have each : sent.map (fun request => some request.text) =
        (sent.map GetRequest.text).map some := by
      rw [List.map_map]
      rfl
    rw [each] at answered
    obtain ⟨divided, http⟩ := divided_of_answered room stream answered
    exact ⟨divided.grouped, http⟩
  · rintro ⟨⟨groups, rfl, grouped⟩, http⟩
    exact answered_of_grouped grouped http kept

def rootGet : GetRequest where
  text := rootRequest
  get := by decide
  short := by decide
  noZero := by decide
  ends := by decide

def rootArrival (segment : List UInt8) (some : segment ≠ []) : Arrival :=
  ⟨[segment], rootTurn fun _ => .accepts 1000, by simpa using some⟩

def scrapeGet : GetRequest where
  text := ascii "GET /scrape?info_hash=a HTTP/1.1\r\n\r\n"
  get := by decide
  short := by decide
  noZero := by decide
  ends := by decide

/-- A request in two segments with a wake-up in between, one in three that arrive together, and
one in one segment. -/
def cutSchedule : List Arrival :=
  [rootArrival (rootRequest.take 5) (by decide), rootArrival (rootRequest.drop 5) (by decide),
    ⟨[scrapeGet.text.take 20, (scrapeGet.text.drop 20).take 14, scrapeGet.text.drop 34],
      rootTurn fun _ => .accepts 1000, by decide⟩,
    rootArrival rootRequest (by decide)]

theorem requests_iff_endsInTime_cut :
    bytes cutSchedule = rootRequest ++ scrapeGet.text ++ rootRequest ∧
      requests (Connection.accept.run (events cutSchedule)) =
        [some rootRequest, some scrapeGet.text, some rootRequest] := by
  have stream : bytes cutSchedule =
      ([rootGet, scrapeGet, rootGet].map GetRequest.text).flatten := by
    decide
  have kept : ∀ arrival ∈ cutSchedule, ∀ request ∈ [rootGet, scrapeGet, rootGet],
      canKeepAlive arrival.turn.keepAlive request.text = true := by
    intro arrival arrives request sends
    have keepAlive : arrival.turn.keepAlive = true := by
      simp only [cutSchedule, List.mem_cons, List.not_mem_nil, or_false] at arrives
      rcases arrives with rfl | rfl | rfl | rfl <;> rfl
    simp only [List.mem_cons, List.not_mem_nil, or_false] at sends
    rw [keepAlive]
    rcases sends with rfl | rfl | rfl <;> decide
  have room : Room .accept cutSchedule := ⟨by decide, by decide, by decide, by decide, trivial⟩
  have grouped : EndsInTime cutSchedule ([rootGet, scrapeGet, rootGet].map GetRequest.text) := by
    refine ⟨⟨[cutSchedule.take 2, (cutSchedule.drop 2).take 1, cutSchedule.drop 3], rfl, ?_⟩, ?_⟩
    · decide
    · decide
  exact ⟨by decide, (requests_iff_endsInTime stream kept room).mpr grouped⟩

/-- Two requests in one segment are one text for `processRead`, and get one response. -/
theorem requests_in_one_segment :
    bytes [rootArrival (rootRequest ++ rootRequest) (by decide)] =
        ([rootGet, rootGet].map GetRequest.text).flatten ∧
      canKeepAlive true rootGet.text = true ∧
      Room .accept [rootArrival (rootRequest ++ rootRequest) (by decide)] ∧
      requests (Connection.accept.run
        (events [rootArrival (rootRequest ++ rootRequest) (by decide)])) ≠
        [rootGet, rootGet].map (fun request => some request.text) := by
  have kept : canKeepAlive true (rootRequest ++ rootRequest) = true := by decide
  have short : (rootRequest ++ rootRequest).length < threadClientTcpReceivedMessageLength := by
    decide
  have ends : strstr (cString (rootRequest ++ rootRequest)) blankLine ≠ none := by decide
  have complete : (waiting (rootRequest ++ rootRequest) []).request =
      some (rootRequest ++ rootRequest) := if_pos ⟨short, rfl, ends⟩
  have read := Connection.processRead_request _ (rootTurn fun _ => .accepts 1000) complete
  dsimp only at read
  rw [show (rootTurn fun _ => .accepts 1000).keepAlive = true from rfl, if_pos (.inl kept)] at read
  have run : Connection.accept.run
      (events [rootArrival (rootRequest ++ rootRequest) (by decide)]) = _ := read
  refine ⟨rfl, by decide, ⟨short, trivial⟩, ?_⟩
  rw [run]
  exact fun same => nomatch congrArg List.length same

end Etracker.Http
