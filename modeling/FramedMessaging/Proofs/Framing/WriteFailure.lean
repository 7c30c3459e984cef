import FramedMessaging.Proofs.Framing.Delivery
set_option autoImplicit false

namespace FramedMessaging

open Operation BufferedChannel

theorem TransportError.endsConnection (e : TransportError) : e.failure.endsConnection = true := by
  unfold failure
  cases e.kind.isDisconnect <;> rfl

namespace Turn

variable {α : Type} {turns : List (Turn α)} {h : CloseHandle} {why : Stop}

theorem endsReading_endless (raced : Bool) (h : CloseHandle) :
    (endless raced h).endsReading = true := by
  unfold endless
  split <;> rfl

theorem endsReading_of_await {raced : Bool} {otherwise : Option α}
    (hr : (await raced otherwise turns h).result = .error why) : why.endsReading = true := by
  induction turns generalizing h with
  | nil =>
    cases otherwise with
    | some a => cases hr
    | none =>
      cases hr
      exact endsReading_endless _ _
  | cons turn rest ih =>
    cases turn with
    | ready a => cases hr
    | fails e =>
      cases hr
      exact e.endsConnection
    | yields =>
      rw [await] at hr
      split at hr
      · cases hr
        rfl
      · exact ih hr
    | hangs =>
      cases hr
      exact endsReading_endless _ _

end Turn

theorem Transport.endsReading_of_writeAll {turns : List (Turn Nat)} {data written : Bytes}
    {h : CloseHandle} {why : Stop} (hr : (writeAll turns data written h).result = .error why) :
    why.endsReading = true := by
  fun_induction writeAll turns data written h with
  | case1 | case2 => cases hr
  | case3 rest data written h hd =>
    cases hr
    rfl
  | case4 n rest data written h hd hn ih => exact ih hr
  | case5 e rest data written h hd he ih => exact ih hr
  | case6 e rest data written h hd he =>
    cases hr
    exact e.endsConnection
  | case7 rest data written h hd hc =>
    cases hr
    rfl
  | case8 rest data written h hd hc ih => exact ih hr
  | case9 =>
    cases hr
    exact Turn.endsReading_endless _ _

namespace Channel

variable {α : Type} {c d : Channel} {why : Stop}

theorem endsReading_of_push {data : Bytes} (h : push data c = .error why d) :
    why.endsReading = true := by
  obtain hc | ⟨s, -, hc⟩ | ⟨t, -, hc⟩ := push_cases data c
  · rw [hc] at h
    cases h
    rfl
  · rw [hc] at h
    cases h
  · rw [hc] at h
    exact Transport.endsReading_of_writeAll (result_of_ofReply h)

theorem endsReading_of_flush (h : flush c = .error why d) : why.endsReading = true := by
  obtain hc | hc | ⟨t, -, hc⟩ := flush_cases c
  · rw [hc] at h
    cases h
    rfl
  · rw [hc] at h
    cases h
  · rw [hc] at h
    exact Turn.endsReading_of_await (result_of_ofReply h)

end Channel

theorem BufferedChannel.endsReading_of_onChannel {α : Type} {op : Operation Channel α}
    (hop : ∀ {c d why}, op c = .error why d → why.endsReading = true) {s t : BufferedChannel}
    {why : Stop} (h : onChannel op s = .error why t) : why.endsReading = true :=
  hop (of_onChannel_error h)

/-- A write fails because the message has no frame, or it fails for good. -/
theorem Framing.write_error {f : Framing} {m : Message} {s t : BufferedChannel} {why : Stop}
    (h : f.write m s = .error why t) :
    (∃ e, f.encode m = .error e ∧ why = .failure e) ∨
      ((∃ frame, f.encode m = .ok frame) ∧ why.endsReading = true) := by
  cases hf : f.encode m with
  | error e =>
    rw [Framing.write, hf, bind_error (lift_error e s)] at h
    cases h
    exact .inl ⟨e, rfl, rfl⟩
  | ok frame =>
    refine .inr ⟨⟨frame, rfl⟩, ?_⟩
    rw [Framing.write, hf, bind_ok (lift_ok frame s)] at h
    cases hw : BufferedChannel.write frame s with
    | error e u =>
      rw [bind_error hw] at h
      cases h
      exact endsReading_of_onChannel Channel.endsReading_of_push hw
    | ok a u =>
      rw [bind_ok hw] at h
      exact endsReading_of_onChannel Channel.endsReading_of_flush h

theorem Framing.encode_of_write {f : Framing} {m : Message} {s t : BufferedChannel}
    (h : f.write m s = .ok () t) : ∃ frame, f.encode m = .ok frame := by
  cases hf : f.encode m with
  | error e =>
    rw [Framing.write, hf, bind_error (lift_error e s)] at h
    cases h
  | ok frame => exact ⟨frame, rfl⟩

end FramedMessaging
