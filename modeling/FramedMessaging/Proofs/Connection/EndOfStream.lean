import FramedMessaging.Proofs.Channel.BytesAfterEnd
import FramedMessaging.Proofs.Connection.Closing
set_option autoImplicit false

namespace FramedMessaging

open Operation

namespace Connection

inductive Use where
  | request (r : Request)
  | close

def Use.after : Use → Connection → Connection
  | .request r, c => r.after c
  | .close, c => c.close

def used (uses : List Use) (c : Connection) : Connection :=
  uses.foldl (fun c u => u.after c) c

def withChannel (c : Connection) (other : Channel) : Connection :=
  { c with stream := { c.stream with channel := other } }

variable {c d : Connection}

theorem ended_of_recv (h : recv c = .ok none d) : d.stream.Ended :=
  BufferedChannel.ended_of_read (of_onStream_ok h).1

theorem recv_ended (ended : c.stream.Ended) : recv c = .ok none c :=
  onStream_ok (s := c.stream) (ended.read c.framing)

/-- Behind the end a use changes at most what was written and whether writing is possible. -/
theorem Use.unread (ended : c.stream.Ended) (use : Use) : c.stream.Unread (use.after c).stream := by
  cases use with
  | close =>
    rw [after, Connection.close]
    split
    · exact .close c.stream
    · exact .refl c.stream
  | request r =>
    cases r with
    | recv =>
      rw [after, Request.after, recv_ended ended]
      exact .refl c.stream
    | send m =>
      rw [after, Request.after, send, final_onStream]
      exact .write c.framing m c.stream
    | shutdown =>
      rw [after, Request.after, shutdown, final_onStream]
      exact .shutdown c.stream

theorem unread_used (ended : c.stream.Ended) (uses : List Use) :
    c.stream.Unread (c.used uses).stream := by
  induction uses generalizing c with
  | nil => exact .refl c.stream
  | cons use later ih =>
    have h := use.unread ended
    exact h.trans (ih (h.ended ended))

theorem recv_end (h : recv c = .ok none d) (later : List Use) :
    recv (d.used later) = .ok none (d.used later) ∧
    (d.used later).stream.channel.incoming = d.stream.channel.incoming ∧
    ∀ other,
      recv ((d.used later).withChannel other) = .ok none ((d.used later).withChannel other) := by
  have ended := ended_of_recv h
  have unread := unread_used ended later
  have still := unread.ended ended
  exact ⟨recv_ended still, unread.incoming,
    fun other => recv_ended ⟨still.atEnd, still.nothingAhead⟩⟩

variable {α : Type} {more : List (Turn Bytes)} {c d : Connection}

open BufferedChannel (Call Overlooks)

def followedBy (more : List (Turn Bytes)) (c : Connection) : Connection :=
  { c with stream := c.stream.followedBy more }

@[simp] theorem stream_followedBy (more : List (Turn Bytes)) (c : Connection) :
    (c.followedBy more).stream = c.stream.followedBy more := rfl

@[simp] theorem framing_followedBy (more : List (Turn Bytes)) (c : Connection) :
    (c.followedBy more).framing = c.framing := rfl

@[simp] theorem closable_followedBy (more : List (Turn Bytes)) (c : Connection) :
    (c.followedBy more).closable = c.closable := rfl

theorem onStream_followedBy {op : Framing → Operation BufferedChannel α}
    (h : Overlooks more (op c.framing)) (within : c.stream.EndsWithin) :
    (final (onStream op c)).stream.EndsWithin ∧
      onStream op (c.followedBy more) = onState (followedBy more) (onStream op c) := by
  obtain ⟨still, same⟩ := h c.stream within
  rw [final_onStream]
  refine ⟨still, ?_⟩
  unfold onStream
  rw [framing_followedBy, stream_followedBy, same]
  cases op c.framing c.stream <;> rfl

theorem recv_followedBy (within : c.stream.EndsWithin) :
    recv (c.followedBy more) = onState (followedBy more) (recv c) :=
  (onStream_followedBy (.read c.framing) within).2

theorem Use.overlooks (use : Use) (within : c.stream.EndsWithin) :
    (use.after c).stream.EndsWithin ∧
      use.after (c.followedBy more) = (use.after c).followedBy more := by
  have asked {α : Type} {op : Framing → Operation BufferedChannel α}
      (h : Overlooks more (op c.framing)) :
      (final (onStream op c)).stream.EndsWithin ∧
        final (onStream op (c.followedBy more)) = (final (onStream op c)).followedBy more := by
    obtain ⟨still, same⟩ := onStream_followedBy h within
    exact ⟨still, by rw [same, final_onState]⟩
  cases use with
  | close =>
    rw [after, after, Connection.close, Connection.close, closable_followedBy]
    split
    · refine ⟨(BufferedChannel.Unread.close c.stream).endsWithin within, ?_⟩
      rw [stream_followedBy, BufferedChannel.close_followedBy]
      rfl
    · exact ⟨within, rfl⟩
  | request r =>
    cases r with
    | recv => exact asked (.read c.framing)
    | send m => exact asked (.send c.framing m)
    | shutdown => exact asked .shutdown

theorem used_followedBy (within : c.stream.EndsWithin) (uses : List Use) :
    (c.used uses).stream.EndsWithin ∧
      (c.followedBy more).used uses = (c.used uses).followedBy more := by
  induction uses generalizing c with
  | nil => exact ⟨within, rfl⟩
  | cons use later ih =>
    obtain ⟨still, same⟩ := use.overlooks within
    rw [used, used, List.foldl_cons, List.foldl_cons, same]
    exact ih still

/-- A connection in use, on a stream that was in use before. Another task may hold the handle of the
stream. -/
def reached (handle : CloseHandle) (chunkSize : Nat) (calls : List Call) (f : Framing)
    (closable : Bool) (uses : List Use) (t : Transport) : Connection :=
  let fresh := BufferedChannel.ofChannel ⟨.transport t, handle, false⟩ chunkSize
  (ofStream (fresh.called calls) f closable).used uses

theorem reached_followedBy {t : Transport} (mem : .ready [] ∈ t.readTurns)
    (more : List (Turn Bytes)) (handle : CloseHandle) (chunkSize : Nat) (calls : List Call)
    (f : Framing) (closable : Bool) (uses : List Use) :
    (reached handle chunkSize calls f closable uses t).stream.EndsWithin ∧
      reached handle chunkSize calls f closable uses (t.followedBy more) =
        (reached handle chunkSize calls f closable uses t).followedBy more := by
  let fresh (t : Transport) := BufferedChannel.ofChannel ⟨.transport t, handle, false⟩ chunkSize
  let begun (t : Transport) := ofStream ((fresh t).called calls) f closable
  have ends : (fresh t).EndsWithin := ⟨t.readTurns, rfl, .inr mem⟩
  obtain ⟨within, same⟩ := BufferedChannel.called_followedBy ends calls
  have same : begun (t.followedBy more) = (begun t).followedBy more :=
    congrArg (ofStream · f closable) same
  have inUse : ((begun t).used uses).stream.EndsWithin ∧
      ((begun t).followedBy more).used uses = ((begun t).used uses).followedBy more :=
    used_followedBy within uses
  rwa [← same] at inUse

/-- The end of a stream is final. Once a receive gave nothing, every later receive gives nothing,
whatever the connection is used for in between. What the channel still has for reads stays there,
and the channel is not even asked, for any other channel would do as well. What a transport has
behind a read of zero bytes stays there too and makes no difference to any receive, whatever was
done with the stream and the connection before. -/
theorem recv_end_final :
    (∀ c d, recv c = .ok none d → ∀ later,
      recv (d.used later) = .ok none (d.used later) ∧
      (d.used later).stream.channel.incoming = d.stream.channel.incoming ∧
      ∀ other,
        recv ((d.used later).withChannel other) = .ok none ((d.used later).withChannel other)) ∧
    ∀ (t : Transport) (more : List (Turn Bytes)), .ready [] ∈ t.readTurns →
      ∀ handle chunkSize calls f closable uses,
        recv (reached handle chunkSize calls f closable uses (t.followedBy more)) =
          onState (followedBy more) (recv (reached handle chunkSize calls f closable uses t)) := by
  refine ⟨fun c d h later => recv_end h later, ?_⟩
  intro t more mem handle chunkSize calls f closable uses
  obtain ⟨within, same⟩ := reached_followedBy mem more handle chunkSize calls f closable uses
  rw [same]
  exact recv_followedBy within

/-- Behind the end of the one stream lies a whole frame, behind that of the other the second half of
one. -/
theorem recv_end_final_of_late_bytes :
    (∃ c d, recv c = .ok none d ∧ d.stream.channel.incoming = .turns [.ready [0, 0, 0, 1, 97]] ∧
      ∃ e, recv (used [.request (.send (.bytes [98])), .request .recv, .close] d) = .ok none e ∧
        e.stream.channel.incoming = .turns [.ready [0, 0, 0, 1, 97]]) ∧
    ∃ c, recv (reached {} 9 [.read (.bytes (.readUpTo 1))] (.endMarker .standard) true
        [.request .recv]
        (.followedBy [.fails ⟨.other, ""⟩, .ready [99, 13, 10]]
          ⟨[.ready [97, 98], .yields, .ready []], false, [], [], [], [], 0, 0⟩)) =
      .error (.failure (.framing (.endedBeforeMarker 1))) c := by
  constructor
  · let c := ofTransport
      ⟨[.yields, .ready [], .ready [0, 0, 0, 1, 97]], false, [], [], [], [], 0, 0⟩
      (.lengthPrefixed .standard) 9
    obtain ⟨again, left, -⟩ := recv_end_final.1 c (final (recv c)) rfl
      [.request (.send (.bytes [98])), .request .recv, .close]
    exact ⟨c, final (recv c), rfl, rfl, _, again, left.trans rfl⟩
  · rw [recv_end_final.2 _ _ (by simp)]
    exact ⟨_, rfl⟩

end Connection

end FramedMessaging
