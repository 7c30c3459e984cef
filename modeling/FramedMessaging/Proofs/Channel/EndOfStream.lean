import FramedMessaging.Proofs.Channel.Reachable
import FramedMessaging.Proofs.Framing.Enclosure
import FramedMessaging.Proofs.Framing.Read
/-!
A stream whose end was seen. No read of it reaches the channel any more, and once the read-ahead is
empty every read gives nothing and leaves the stream as it is. Under every framing, a read that
gives nothing leaves a stream in this state.
-/
set_option autoImplicit false

namespace FramedMessaging

open Operation

inductive Incoming where
  | steps (steps : List Step) (pulls : Nat)
  | turns (turns : List (Turn Bytes))
  deriving DecidableEq, Repr

namespace Channel

def incoming (c : Channel) : Incoming :=
  match c.endpoint with
  | .scripted s => .steps s.steps s.pulls
  | .transport t => .turns t.readTurns

theorem incoming_close (c : Channel) : c.close.incoming = c.incoming := rfl

theorem incoming_afterReply {α : Type} {c : Channel} {t : Transport} {r : Reply α}
    (transport : c.endpoint = .transport t) (same : r.transport.readTurns = t.readTurns) :
    (c.afterReply r).incoming = c.incoming := by
  simp only [incoming, afterReply, transport, same]

theorem incoming_push (data : Bytes) (c : Channel) :
    (final (push data c)).incoming = c.incoming := by
  obtain h | ⟨s, hp, h⟩ | ⟨t, hp, h⟩ := push_cases data c
  · rw [h, final_error]
  · simp only [h, final_ok, incoming, hp]
  · rw [h, final_ofReply, incoming_afterReply hp rfl]

theorem incoming_flush (c : Channel) : (final (flush c)).incoming = c.incoming := by
  obtain h | h | ⟨t, hp, h⟩ := flush_cases c
  · rw [h, final_error]
  · rw [h, final_ok]
  · rw [h, final_ofReply, incoming_afterReply hp rfl]

theorem incoming_shutdown (c : Channel) : (final (shutdown c)).incoming = c.incoming := by
  obtain ⟨-, h⟩ | h | ⟨t, hp, -, h⟩ := shutdown_cases c
  · rw [h, final_error]
  · rw [h, final_ok]
    rfl
  · rw [h, final_ofReply]
    exact incoming_afterReply (c := { c with writeShut := true }) hp rfl

end Channel

namespace BufferedChannel

variable {s t : BufferedChannel}

/-! Reads that find nothing. -/

theorem atEnd_of_fetch {most : Nat} (h : fetch most s = .ok none t) : t.atEnd = true := by
  unfold fetch at h
  cases he : s.atEnd with
  | true =>
    simp only [he, if_true, EStateM.Result.ok.injEq] at h
    rw [← h.2, he]
  | false =>
    simp only [he, onChannel, Bool.false_eq_true, if_false] at h
    cases hc : Channel.await most s.channel with
    | error why c => simp [hc] at h
    | ok data c =>
      cases data with
      | some b => simp [hc] at h
      | none =>
        simp only [hc, EStateM.Result.ok.injEq] at h
        rw [← h.2]

theorem atEnd_of_pull {most : Nat} (h : pull most s = .ok none t) : t.atEnd = true := by
  by_cases empty : s.readAhead.bytes = []
  · rw [pull_of_empty empty] at h
    exact atEnd_of_fetch h
  · rw [pull_of_nonempty empty] at h
    cases h

theorem atEnd_of_drain {limit : Option Nat} {rounds : Nat} {got data : Bytes}
    (h : drain limit rounds got s = .ok data t) : t.atEnd = true := by
  induction rounds generalizing got s with
  | zero => cases h
  | succ rounds ih =>
    obtain ⟨pulled, u, hp, h⟩ := of_bind_ok h
    cases pulled with
    | none =>
      cases h
      rw [pullChunk_apply] at hp
      exact atEnd_of_pull hp
    | some b =>
      obtain ⟨-, v, -, h⟩ := of_bind_ok h
      exact ih h

theorem length_pos_of_pull {most : Nat} {b : Bytes} (h : pull most s = .ok (some b) t) :
    0 < b.length := by
  rcases pull_cases most s with ⟨b', u, hp, ne, -⟩ | ⟨u, hp, -⟩ | ⟨why, u, hp, -⟩ <;>
    cases h.symm.trans hp
  exact List.length_pos_iff.mpr ne

/-- Fewer bytes than were asked for come only where the stream ends. -/
theorem atEnd_of_gather {rounds missing : Nat} {got data : Bytes} (enough : missing ≤ rounds)
    (h : gather rounds missing got s = .ok data t) (short : data.length < got.length + missing) :
    t.atEnd = true := by
  induction rounds generalizing missing got s with
  | zero =>
    cases h
    omega
  | succ rounds ih =>
    rw [gather] at h
    by_cases h0 : missing = 0
    · rw [if_pos h0] at h
      cases h
      omega
    · rw [if_neg h0, bind_ok (get_apply s)] at h
      obtain ⟨pulled, u, hp, h⟩ := of_bind_ok h
      cases pulled with
      | none =>
        cases h
        exact atEnd_of_pull hp
      | some b =>
        have hb := length_pos_of_pull hp
        refine ih (by omega) h ?_
        rw [List.length_append]
        omega

theorem atEnd_of_readUntil {marker : Bytes} (ne : marker ≠ []) {limit : Option Nat}
    (h : readUntil marker limit s = .ok none t) : t.atEnd = true := by
  obtain ⟨u, -, searched⟩ := searched_readUntil ne limit s
  rw [h] at searched
  cases searched with
  | nothing fetch => exact atEnd_of_fetch fetch

theorem atEnd_of_readToken {size rounds : Nat} {expected : Bytes}
    (h : readToken size rounds expected s = .ok false t) : t.atEnd = true := by
  induction rounds generalizing expected s with
  | zero => cases h
  | succ rounds ih =>
    rw [readToken] at h
    by_cases he : expected = []
    · rw [if_pos he] at h
      cases h
    · rw [if_neg he] at h
      obtain ⟨pulled, u, hp, h⟩ := of_bind_ok h
      cases pulled with
      | none =>
        dsimp only at h
        split at h
        · cases h
          exact atEnd_of_pull hp
        · cases h
      | some b =>
        obtain ⟨left, v, -, h⟩ := of_bind_ok h
        exact ih h

theorem of_decoded_none {codec : Codec} {op : Operation BufferedChannel (Option Bytes)}
    (h : (op >>= Framing.decoded codec) s = .ok none t) : op s = .ok none t := by
  obtain ⟨data, u, hop, h⟩ := of_bind_ok h
  cases data with
  | none =>
    cases h
    exact hop
  | some b =>
    simp only [Framing.decoded, map_apply] at h
    cases hd : codec.decode b <;> simp [hd] at h

theorem atEnd_of_readBody {f : LengthFraming} (h : f.readBody s = .ok none t) :
    t.atEnd = true := by
  obtain ⟨digits, u, hr, h⟩ := of_bind_ok h
  by_cases he : digits = []
  · rw [if_pos he] at h
    cases h
    exact atEnd_of_gather (Nat.le_refl _) hr (by simp [he, f.header.width.bytes_pos])
  · rw [if_neg he] at h
    -- A body that came is a payload, and a header without one is refused.
    cases hd : f.header.decode? digits with
    | none =>
      simp only [hd, branch_apply] at h
      split at h <;> cases h
    | some declared =>
      simp only [hd, branch_apply] at h
      split at h
      · cases h
      · split at h
        · cases h
        · obtain ⟨body, v, -, h⟩ := of_bind_ok h
          cases h

theorem atEnd_of_read {f : Framing} (h : f.read s = .ok none t) : t.atEnd = true := by
  cases f with
  | direct f =>
    obtain ⟨data, u, hd, h⟩ := of_bind_ok (of_decoded_none h)
    rw [pure_apply, EStateM.Result.ok.injEq] at h
    exact h.2 ▸ atEnd_of_drain hd
  | lengthPrefixed f => exact atEnd_of_readBody (of_decoded_none h)
  | endMarker f => exact atEnd_of_readUntil f.marker_ne (of_decoded_none h)
  | negotiated token ne inner =>
    obtain ⟨came, u, ht, h⟩ := of_bind_ok h
    cases came with
    | false =>
      cases h
      exact atEnd_of_readToken ht
    | true =>
      rw [if_pos rfl] at h
      obtain ⟨m, v, -, h⟩ := of_bind_ok h
      cases m <;> cases h

structure Ended (s : BufferedChannel) : Prop where
  atEnd : s.atEnd = true
  nothingAhead : s.readAhead.bytes = []

theorem ended_of_read {f : Framing} (h : f.read s = .ok none t) : t.Ended := by
  refine ⟨atEnd_of_read h, ?_⟩
  -- Where the cut of all that is to come is an end, nothing of it is left, read ahead or not.
  have hm := f.read_meets s
  rw [h] at hm
  have dry : t.flow = .dry := by
    cases hc : f.cut s.flow with
    | payload b rest =>
      rw [hc] at hm
      obtain ⟨u, hu, -⟩ := hm
      cases hd : f.codec.decode b <;> simp [hd, Except.map] at hu
    | ended =>
      rw [hc] at hm
      obtain ⟨u, hu, hf⟩ := hm
      cases hu
      exact hf
    | stopped why =>
      rw [hc] at hm
      obtain ⟨u, hu⟩ := hm
      cases hu
  have nothing : t.readAhead.bytes ++ t.beyond.bytes = [] := congrArg Flow.bytes dry
  exact (List.append_eq_nil_iff.mp nothing).1

/-! Reads behind the end. -/

/-- Once the end was seen, reading changes nothing but the read-ahead. -/
theorem atEnd_relation : ReadRelation fun s t =>
    s.atEnd = true → ∃ a, t = { s with readAhead := a } where
  refl s _ := ⟨s.readAhead, rfl⟩
  trans {s t u} hst htu atEnd := by
    obtain ⟨a, rfl⟩ := hst atEnd
    obtain ⟨b, rfl⟩ := htu atEnd
    exact ⟨b, rfl⟩
  fetch most s atEnd := ⟨s.readAhead, congrArg final (if_pos atEnd)⟩
  readAhead s a _ := ⟨a, rfl⟩

namespace Ended

theorem flow_eq (ended : s.Ended) : s.flow = .dry := by
  rw [flow, beyond, if_pos ended.atEnd, ended.nothingAhead]
  rfl

theorem read (ended : s.Ended) (f : Framing) : f.read s = .ok none s := by
  have hm := f.read_meets s
  rw [ended.flow_eq, Flow.dry, f.cut_nil] at hm
  obtain ⟨t, hr, -⟩ := hm
  have kept := atEnd_relation.read f s ended.atEnd
  rw [hr, final_ok] at kept
  obtain ⟨⟨ahead⟩, rfl⟩ := kept
  have same : ahead = s.readAhead.bytes :=
    (ended_of_read hr).nothingAhead.trans ended.nothingAhead.symm
  rw [hr, same]

end Ended

/-- Only the writing side of the two streams may differ. -/
structure Unread (s t : BufferedChannel) : Prop where
  readAhead : t.readAhead = s.readAhead
  atEnd : t.atEnd = s.atEnd
  incoming : t.channel.incoming = s.channel.incoming

namespace Unread

theorem refl (s : BufferedChannel) : s.Unread s := ⟨rfl, rfl, rfl⟩

theorem trans {s t u : BufferedChannel} (hst : s.Unread t) (htu : t.Unread u) : s.Unread u :=
  ⟨htu.readAhead.trans hst.readAhead, htu.atEnd.trans hst.atEnd, htu.incoming.trans hst.incoming⟩

theorem ended (h : s.Unread t) (ended : s.Ended) : t.Ended :=
  ⟨h.atEnd.trans ended.atEnd, (congrArg Accumulator.bytes h.readAhead).trans ended.nothingAhead⟩

theorem onChannel {α : Type} {op : Operation Channel α}
    (keeps : ∀ c, (final (op c)).incoming = c.incoming) : Respects Unread (onChannel op) := by
  intro s
  rw [final_onChannel]
  exact ⟨rfl, rfl, keeps s.channel⟩

theorem write (f : Framing) (m : Message) : Respects Unread (f.write m) := by
  refine Respects.bind (R := Unread) trans (Respects.lift refl _) fun frame => ?_
  exact Respects.bind (R := Unread) trans (onChannel (Channel.incoming_push frame)) fun _ =>
    onChannel Channel.incoming_flush

theorem shutdown : Respects Unread BufferedChannel.shutdown := onChannel Channel.incoming_shutdown

theorem close (s : BufferedChannel) : s.Unread s.close := ⟨rfl, rfl, s.channel.incoming_close⟩

end Unread

end BufferedChannel

end FramedMessaging
