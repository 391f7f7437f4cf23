import L8Tunnel.Base.GoMap

/-! # The agent's HTTP inspector (inspect/recorder.go, proxy.go) -/

namespace L8Tunnel.Inspect
open Base

def maxBody : ℕ := 64 * 1024
def defaultMaxEntries : ℕ := 200
abbrev Header := GoMap String (List String)

/-- A recorded exchange. The identifier and the sizes are `int64` in the source
and unbounded here: one counts exchanges from 1, the others the bytes of one
body, each a step at a time, so none comes near 2⁶³. -/
structure Entry where
  id : ℤ := 0
  tunnel : String := ""
  method : String := ""
  uri : String := ""
  host : String := ""
  reqHead : Header := ∅
  reqBody : List UInt8 := []
  reqSize : ℤ := 0
  status : ℤ := 0
  respHead : Header := ∅
  respBody : List UInt8 := []
  respSize : ℤ := 0
  error : String := ""
  upgraded : Bool := false
  replayOf : ℤ := 0

/-- The first `maxBody` bytes written, and how many there were. -/
structure Capture where
  buf : List UInt8 := []
  size : ℤ := 0

def Capture.write (c : Capture) (p : List UInt8) : Capture :=
  { buf := c.buf ++ p.take (maxBody - c.buf.length), size := c.size + p.length }

/-- A body as the copying loop meets it: the pieces the sender has for it and,
where copying breaks off, after how many of them and with which error. A read
that fails and a write that fails look the same to the recorder. -/
structure Stream where
  pieces : List (List UInt8)
  failed : Option (ℕ × String) := none

def Stream.body (b : Stream) : List UInt8 := b.pieces.flatten

def Stream.read (b : Stream) : List (List UInt8) :=
  match b.failed with
  | none => b.pieces
  | some (n, _) => b.pieces.take n

def Stream.captured (b : Stream) : Capture := b.read.foldl Capture.write {}
def Stream.error (b : Stream) : Option String := b.failed.map Prod.snd

structure Request where
  method : String
  uri : String
  host : String
  header : Header := ∅
  close : Bool := false

structure Response where
  status : ℤ
  header : Header := ∅
  close : Bool := false
  body : Stream

structure Exchanged where
  entry : Entry
  keepGoing : Bool := false
  upgraded : Bool := false

def Entry.finish (e : Entry) (err : Option String) : Entry :=
  match err with
  | none => e
  | some why => if e.error = "" then { e with error := why } else e

def respond (req : Request) (readError : String) : List Response → Entry → Exchanged
  | [], e => { entry := { e with status := 502 }.finish (some readError) }
  | resp :: more, e =>
    let e := { e with status := resp.status, respHead := resp.header }
    if resp.status = 101 then
      { entry := { e with upgraded := true }.finish resp.body.error, upgraded := resp.body.error.isNone }
    else if 100 ≤ resp.status ∧ resp.status < 200 then
      match resp.body.error with
      | some why => { entry := e.finish (some why) }
      | none => respond req readError more e
    else
      let c := resp.body.captured
      { entry := { e with respBody := c.buf, respSize := c.size }.finish resp.body.error
        keepGoing := resp.body.error.isNone && !req.close && !resp.close }

/-- One exchange: what the client sends, the responses the local server gives in
turn, and the error that reading one ends with when there is none left. -/
structure Traffic where
  tunnel : String
  req : Request
  body : Stream
  responses : List Response
  readError : String

def Traffic.recorded (x : Traffic) : Entry :=
  { tunnel := x.tunnel, method := x.req.method, uri := x.req.uri, host := x.req.host
    reqHead := x.req.header }

def exchange (x : Traffic) : Exchanged :=
  match x.body.error with
  | some why => { entry := x.recorded.finish (some why) }
  | none =>
    respond x.req x.readError x.responses
      { x.recorded with reqBody := x.body.captured.buf, reqSize := x.body.captured.size }

/-- The ring of the last `max` exchanges, with the identifiers given so far. -/
structure Recorder where
  max : ℕ
  nextID : ℤ := 0
  entries : List Entry := []
  max_pos : 0 < max
  given : ∀ e ∈ entries, e.id ≤ nextID
  ordered : entries.Pairwise fun e e' => e.id < e'.id

def newRecorder (max : ℤ) : Recorder where
  max := if max ≤ 0 then defaultMaxEntries else max.toNat
  max_pos := by
    split
    · decide
    · omega
  given e he := (List.not_mem_nil he).elim
  ordered := .nil

namespace Recorder

def last (max : ℕ) (entries : List Entry) : List Entry := entries.drop (entries.length - max)
def numbered (r : Recorder) (e : Entry) : Entry := { e with id := r.nextID + 1 }

def add (r : Recorder) (e : Entry) : Recorder where
  max := r.max
  nextID := r.nextID + 1
  entries := last r.max (r.entries ++ [r.numbered e])
  max_pos := r.max_pos
  given u hu := by
    rcases List.mem_append.mp (List.mem_of_mem_drop hu) with hold | hnew
    · have hle := r.given u hold
      omega
    · rw [List.mem_singleton.mp hnew]
      exact Int.le_refl _
  ordered := by
    refine List.Pairwise.drop (List.pairwise_append.mpr ⟨r.ordered, List.pairwise_singleton _ _, ?_⟩)
    intro u hu v hv
    rw [List.mem_singleton.mp hv]
    exact Int.lt_add_one_of_le (r.given u hu)

def get (r : Recorder) (id : ℤ) : Option Entry := r.entries.find? fun e => e.id = id

/-- The request a replay sends; its body is what the stream carries. -/
structure Replayed where
  method : String
  url : String
  host : String
  requestURI : String
  header : Header
  contentLength : ℤ
  close : Bool
  body : List UInt8

/-- What a replay meets: whether the local server can be dialled and the request
built, how a body is cut into pieces when it is sent, and what is answered. -/
structure ReplayEnv where
  dial : String → Except String Unit
  newRequest : String → String → Except String Unit
  pieces : List UInt8 → Stream
  responses : List Response
  readError : String
  whole : ∀ body, (pieces body).body = body

def replay (r : Recorder) (env : ReplayEnv) (id : ℤ) : Recorder × Except String Replayed :=
  match r.get id with
  | none => (r, .error "no such request")
  | some orig =>
    if orig.reqSize ≠ orig.reqBody.length then
      (r, .error "the request body was larger than the inspector keeps; it can't be replayed")
    else if orig.upgraded then
      (r, .error "protocol upgrades (WebSockets) can't be replayed")
    else match env.dial orig.tunnel with
      | .error err => (r, .error err)
      | .ok _ =>
        let url := "http://" ++ orig.host ++ orig.uri
        match env.newRequest orig.method url with
        | .error err => (r, .error err)
        | .ok _ =>
          let req : Request :=
            { method := orig.method, uri := orig.uri, host := orig.host, header := orig.reqHead
              close := true }
          let body := env.pieces orig.reqBody
          let out := exchange
            { tunnel := orig.tunnel, req := req, body := body
              responses := env.responses, readError := env.readError }
          (r.add { out.entry with uri := orig.uri, replayOf := orig.id },
            .ok
              { method := orig.method, url := url, host := orig.host, requestURI := orig.uri
                header := orig.reqHead, contentLength := orig.reqSize, close := true
                body := body.body })

variable (r : Recorder)

theorem get_iff (id : ℤ) (e : Entry) : r.get id = some e ↔ e ∈ r.entries ∧ e.id = id := by
  unfold get
  constructor
  · intro h
    have hid : e.id = id := by simpa using List.find?_some h
    exact ⟨List.mem_of_find?_eq_some h, hid⟩
  · rintro ⟨hmem, rfl⟩
    obtain ⟨before, after, hsplit⟩ := List.append_of_mem hmem
    have hordered := r.ordered
    rw [hsplit] at hordered ⊢
    refine List.find?_eq_some_iff_append.mpr ⟨decide_eq_true rfl, before, after, rfl, fun u hu => ?_⟩
    have hlt := (List.pairwise_append.mp hordered).2.2 u hu e List.mem_cons_self
    simpa using Int.ne_of_lt hlt

theorem mem_add {r : Recorder} {e u : Entry} (h : u ∈ (r.add e).entries) :
    u ∈ r.entries ∨ u = r.numbered e := by
  rcases List.mem_append.mp (List.mem_of_mem_drop h) with hold | hnew
  · exact .inl hold
  · exact .inr (List.mem_singleton.mp hnew)

theorem numbered_mem_add (e : Entry) : r.numbered e ∈ (r.add e).entries := by
  have hpos := r.max_pos
  show _ ∈ (r.entries ++ [r.numbered e]).drop _
  rw [List.drop_append_of_le_length (by rw [List.length_append, List.length_singleton]; omega)]
  exact List.mem_append_right _ (List.mem_singleton_self _)

theorem get_later (e : Entry) (later : List Entry) {u : Entry}
    (h : (later.foldl add (r.add e)).get (r.nextID + 1) = some u) : u = r.numbered e := by
  have hkept : ∀ (later : List Entry) (q : Recorder), u.id ≤ q.nextID →
      u ∈ (later.foldl add q).entries → u ∈ q.entries := by
    intro later
    induction later with
    | nil => exact fun q _ hu => hu
    | cons v later ih =>
      intro q hle hu
      have hle' : u.id ≤ (q.add v).nextID := Int.le_trans hle (Int.le_of_lt (Int.lt_succ _))
      refine (mem_add (ih (q.add v) hle' hu)).resolve_right fun hnew => ?_
      rw [hnew] at hle
      exact absurd hle (Int.not_le.mpr (Int.lt_succ _))
  obtain ⟨hmem, hid⟩ := (get_iff _ _ _).mp h
  refine (mem_add (hkept later (r.add e) (Int.le_of_eq hid) hmem)).resolve_left fun hold => ?_
  have hle := r.given u hold
  omega

end Recorder

theorem captured_foldl (ps : List (List UInt8)) (all : List UInt8) {c : Capture}
    (hbuf : c.buf = all.take maxBody) (hsize : c.size = all.length) :
    (ps.foldl Capture.write c).buf = (all ++ ps.flatten).take maxBody ∧
      (ps.foldl Capture.write c).size = (all ++ ps.flatten).length := by
  induction ps generalizing c all with
  | nil =>
    rw [List.flatten_nil, List.append_nil]
    exact ⟨hbuf, hsize⟩
  | cons p ps ih =>
    rw [List.foldl_cons, List.flatten_cons, ← List.append_assoc]
    refine ih (all ++ p) ?_ ?_
    · have hroom : maxBody - (all.take maxBody).length = maxBody - all.length := by
        rw [List.length_take]
        omega
      show c.buf ++ p.take (maxBody - c.buf.length) = _
      rw [hbuf, hroom, List.take_append]
    · show c.size + p.length = _
      rw [hsize, List.length_append]
      exact (Int.natCast_add _ _).symm

theorem captured_whole {b : Stream} (h : b.failed = none) :
    b.captured.buf = b.body.take maxBody ∧ b.captured.size = b.body.length := by
  have hread : b.read = b.pieces := by
    unfold Stream.read
    rw [h]
  unfold Stream.captured Stream.body
  rw [hread]
  exact captured_foldl b.pieces [] rfl rfl

theorem finish_request (e : Entry) (err : Option String) :
    (e.finish err).reqBody = e.reqBody ∧ (e.finish err).reqSize = e.reqSize ∧
      (e.finish err).upgraded = e.upgraded := by
  unfold Entry.finish
  split
  · exact ⟨rfl, rfl, rfl⟩
  · split
    · exact ⟨rfl, rfl, rfl⟩
    · exact ⟨rfl, rfl, rfl⟩

theorem respond_request (req : Request) (readError : String) (responses : List Response) (e : Entry) :
    (respond req readError responses e).entry.reqBody = e.reqBody ∧
      (respond req readError responses e).entry.reqSize = e.reqSize := by
  induction responses generalizing e with
  | nil => exact ⟨(finish_request _ _).1, (finish_request _ _).2.1⟩
  | cons resp more ih =>
    unfold respond
    dsimp only
    split
    · exact ⟨(finish_request _ _).1, (finish_request _ _).2.1⟩
    split
    · split
      · exact ⟨(finish_request _ _).1, (finish_request _ _).2.1⟩
      · exact ih _
    · exact ⟨(finish_request _ _).1, (finish_request _ _).2.1⟩

theorem exchange_forwarded {x : Traffic} (h : x.body.failed = none) :
    (exchange x).entry.reqBody = x.body.body.take maxBody ∧
      (exchange x).entry.reqSize = x.body.body.length := by
  have herror : x.body.error = none := by
    unfold Stream.error
    rw [h, Option.map_none]
  obtain ⟨hbuf, hsize⟩ := captured_whole h
  unfold exchange
  rw [herror]
  obtain ⟨hbody, hlen⟩ := respond_request x.req x.readError x.responses
    { x.recorded with reqBody := x.body.captured.buf, reqSize := x.body.captured.size }
  exact ⟨hbody.trans hbuf, hlen.trans hsize⟩

theorem exchange_failed {x : Traffic} (h : x.body.failed ≠ none) :
    (exchange x).entry.reqBody = [] ∧ (exchange x).entry.reqSize = 0 ∧
      (exchange x).entry.upgraded = false := by
  obtain ⟨failure, hfailure⟩ := Option.ne_none_iff_exists'.mp h
  have herror : x.body.error = some failure.2 := by
    unfold Stream.error
    rw [hfailure, Option.map_some]
  unfold exchange
  rw [herror]
  exact finish_request x.recorded (some failure.2)

namespace Recorder
variable {r : Recorder} {id : ℤ}

theorem replay_sends {env : ReplayEnv} {out : Replayed} (h : (r.replay env id).2 = .ok out) :
    ∃ e, r.get id = some e ∧ e.reqSize = e.reqBody.length ∧ out.body = e.reqBody := by
  unfold replay at h
  split at h
  · cases h
  next e he =>
  split at h
  · cases h
  next hsize =>
  split at h
  · cases h
  split at h
  · cases h
  dsimp only at h
  split at h
  · cases h
  · cases h
    exact ⟨e, he, not_not.mp hsize, env.whole e.reqBody⟩

def willing : ReplayEnv where
  dial _ := .ok ()
  newRequest _ _ := .ok ()
  pieces body := { pieces := [body] }
  responses := []
  readError := ""
  whole _ := List.flatten_singleton

theorem replay_willing {e : Entry} (hget : r.get id = some e) (hsize : e.reqSize = e.reqBody.length)
    (hup : e.upgraded = false) :
    ∃ out, (r.replay willing id).2 = .ok out ∧ out.body = e.reqBody := by
  unfold replay
  rw [hget]
  dsimp only
  rw [if_neg (not_not.mpr hsize), hup]
  exact ⟨_, rfl, willing.whole e.reqBody⟩

/-- Replays of a request send its body, exactly if it was forwarded or has none. -/
theorem replay_body_iff (r : Recorder) (x : Traffic) :
    (∀ (later : List Entry) (env : ReplayEnv) (out : Replayed),
      ((later.foldl add (r.add (exchange x).entry)).replay env (r.nextID + 1)).2 = .ok out →
        out.body = x.body.body) ↔
      x.body.failed = none ∨ x.body.body = [] := by
  constructor
  · intro h
    by_cases hfailed : x.body.failed = none
    · exact .inl hfailed
    · obtain ⟨hbody, hsize, hup⟩ := exchange_failed hfailed
      have hget : (r.add (exchange x).entry).get (r.nextID + 1) =
          some (r.numbered (exchange x).entry) :=
        (get_iff _ _ _).mpr ⟨numbered_mem_add r _, rfl⟩
      have hcounted : (r.numbered (exchange x).entry).reqSize =
          (r.numbered (exchange x).entry).reqBody.length := by
        show (exchange x).entry.reqSize = (exchange x).entry.reqBody.length
        rw [hsize, hbody]
        rfl
      obtain ⟨out, hsent, hempty⟩ := replay_willing hget hcounted hup
      refine .inr ((h [] willing out hsent).symm.trans (hempty.trans ?_))
      exact hbody
  · intro hwhole later env out hsent
    obtain ⟨e, hget, hcount, hout⟩ := replay_sends hsent
    have he := get_later r (exchange x).entry later hget
    have hbody : e.reqBody = (exchange x).entry.reqBody := by rw [he]; rfl
    have hsize : e.reqSize = (exchange x).entry.reqSize := by rw [he]; rfl
    rw [hsize, hbody] at hcount
    rw [hout, hbody]
    by_cases hfailed : x.body.failed = none
    · obtain ⟨hstart, hlen⟩ := exchange_forwarded hfailed
      rw [hlen, hstart] at hcount
      rw [hstart]
      refine List.take_of_length_le ?_
      have hmin := List.length_take (i := maxBody) (l := x.body.body)
      omega
    · rw [(exchange_failed hfailed).1, hwhole.resolve_left hfailed]

def cutOff : Traffic :=
  { tunnel := "web", req := { method := "POST", uri := "/upload", host := "app.example.com" }
    body := { pieces := [[104], [105]], failed := some (2, "broken pipe") }
    responses := [], readError := "EOF" }

theorem replay_loses_body :
    cutOff.body.body = [104, 105] ∧
      (((newRecorder 0).add (exchange cutOff).entry).replay willing 1).2.map Replayed.body =
        .ok [] :=
  ⟨rfl, rfl⟩

end Recorder
end L8Tunnel.Inspect
