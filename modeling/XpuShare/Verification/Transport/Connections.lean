import XpuShare.Lib.Transition
import XpuShare.Model.Connection

/-! # Messages arrive in order

However the kernel cuts the reads and writes of a connection up, the receiver handles the
messages that the sender has sent, in their order, none twice and none in parts. -/

namespace XpuShare

theorem messageCodec_width_pos : 0 < messageCodec.width := by
  rw [messageCodec_width]
  norm_num

theorem Reply.chunk_iff {bound available n : ℕ} :
    Reply.chunk bound available n = true ↔ 0 < n ∧ n ≤ bound ∧ n ≤ available := by
  simp [Reply.chunk, and_assoc]

/-- Messages whose bytes come first are the first messages. -/
theorem prefix_of_bytes {handled begun : List Message} {rest : List UInt8}
    (h : messageCodec.stream handled ++ rest = messageCodec.stream begun) : handled <+: begun := by
  obtain ⟨later, hlater, -⟩ := messageCodec.prefix_of_stream messageCodec_width_pos h
  exact ⟨later, hlater⟩

/-- Messages without any bytes left after them are all the messages. -/
theorem eq_of_bytes {handled begun : List Message}
    (h : messageCodec.stream handled = messageCodec.stream begun) : handled = begun := by
  have hwhole : messageCodec.stream handled ++ [] = messageCodec.stream begun := by
    rw [List.append_nil, h]
  obtain ⟨later, hlater, hrest⟩ :=
    messageCodec.prefix_of_stream messageCodec_width_pos hwhole
  have hnone : later = [] := by
    have hlength := congrArg List.length hrest
    rw [Codec.length_stream, List.length_nil] at hlength
    have hpos := messageCodec_width_pos
    rw [← List.length_eq_zero_iff]
    exact (Nat.mul_eq_zero.mp hlength.symm).resolve_right (by omega)
  rw [← hlater, hnone, List.append_nil]

/-! ## From a client to the scheduler -/

namespace Upstream

variable {u v : Upstream}

/-- Memory reports are written in one piece, and not into the middle of another message. -/
def Whole (u : Upstream) : Event → Prop
  | .report _ (.moved n) => n = messageCodec.width ∧ u.writing = []
  | _ => True

instance (u : Upstream) (e : Event) : Decidable (u.Whole e) :=
  match e with
  | .report _ (.moved _) => inferInstanceAs (Decidable (_ ∧ _))
  | .report _ .interrupted | .report _ .failed => .isTrue trivial
  | .begin _ | .write _ | .receive _ => .isTrue trivial

/-- The bytes of the messages handled, those under way and those still to be written are the
bytes of the messages begun. -/
def Intact (u : Upstream) : Prop :=
  messageCodec.stream u.handled ++ (u.wire ++ u.writing) = messageCodec.stream u.begun

/-- What the client does to a connection. -/
structure Sends (u v : Upstream) : Prop where
  handled_eq : v.handled = u.handled
  begun_prefix : u.begun <+: v.begun
  dropped_eq : v.dropped = u.dropped
  intact : u.Intact → v.Intact

theorem Sends.refl (u : Upstream) : Sends u u := ⟨rfl, List.prefix_rfl, rfl, id⟩

theorem begin_sends {m : Message} (h : u.begin m = some v) : Sends u v := by
  unfold Upstream.begin at h
  split at h
  · cases h
  · rename_i hidle
    have hwriting : u.writing = [] := by
      by_contra hne
      simp [hne] at hidle
    rw [← Option.some.inj h]
    refine ⟨rfl, List.prefix_append _ _, rfl, ?_⟩
    intro hu
    unfold Intact at hu ⊢
    rw [hwriting, List.append_nil] at hu
    simp only
    rw [Codec.stream_concat, ← hu, List.append_assoc]

theorem write_sends {r : Reply} (h : u.write r = some v) : Sends u v := by
  unfold Upstream.write at h
  split at h
  · cases h
  · cases r with
    | moved n =>
        simp only at h
        split at h
        · rw [← Option.some.inj h]
          refine ⟨rfl, List.prefix_rfl, rfl, ?_⟩
          intro hu
          unfold Intact at hu ⊢
          simp only
          rw [← hu, List.append_assoc, List.take_append_drop]
        · cases h
    | interrupted => exact Option.some.inj h ▸ Sends.refl u
    | failed => exact Option.some.inj h ▸ ⟨rfl, List.prefix_rfl, rfl, id⟩

theorem report_sends {m : Message} {r : Reply} (hok : u.Whole (.report m r))
    (h : u.report m r = some v) : Sends u v := by
  unfold Upstream.report at h
  split at h
  · cases h
  · cases r with
    | moved n =>
        obtain ⟨rfl, hwriting⟩ := hok
        simp only at h
        split at h
        · rw [← Option.some.inj h]
          refine ⟨rfl, List.prefix_append _ _, rfl, ?_⟩
          intro hu
          have hall : (messageCodec.encode m).take messageCodec.width = messageCodec.encode m :=
            List.take_of_length_le (messageCodec.length_encode m).le
          unfold Intact at hu ⊢
          simp only
          rw [hall, hwriting, List.append_nil, Codec.stream_concat, ← hu, hwriting,
            List.append_nil, List.append_assoc]
        · cases h
    | interrupted => exact Option.some.inj h ▸ Sends.refl u
    | failed => exact Option.some.inj h ▸ Sends.refl u

/-- A `read` gives the scheduler a whole message, and the message is the next one; or it leaves
the messages handled as they are. -/
theorem receive_cases {r : Reply} (h : u.receive r = some v) :
    (v.handled = u.handled ∧ v.begun = u.begun ∧ (v.dropped = true ∨ v = u)) ∨
      u.dropped = false ∧ messageCodec.width ≤ u.wire.length ∧
        v = { u with
          handled := u.handled ++ [messageCodec.decode (u.wire.take messageCodec.width)]
          wire := u.wire.drop messageCodec.width } := by
  unfold Upstream.receive at h
  split at h
  · cases h
  · rename_i hlive
    cases r with
    | moved n =>
        simp only at h
        split at h
        · split at h
          · exact Or.inl (Option.some.inj h ▸ ⟨rfl, rfl, Or.inl rfl⟩)
          · cases h
        · split at h
          · rename_i hchunk
            obtain ⟨-, hle, havailable⟩ := Reply.chunk_iff.mp hchunk
            split at h
            · exact Or.inl (Option.some.inj h ▸ ⟨rfl, rfl, Or.inl rfl⟩)
            · rename_i hfull
              have hn : n = messageCodec.width := by omega
              subst hn
              exact Or.inr ⟨by simpa using hlive, havailable, (Option.some.inj h).symm⟩
          · cases h
    | interrupted => exact Or.inl (Option.some.inj h ▸ ⟨rfl, rfl, Or.inr rfl⟩)
    | failed => exact Or.inl (Option.some.inj h ▸ ⟨rfl, rfl, Or.inl rfl⟩)

theorem receive_whole (h : u.receive (.moved messageCodec.width) = some v) :
    messageCodec.width ≤ u.wire.length ∧
      v = { u with
        handled := u.handled ++ [messageCodec.decode (u.wire.take messageCodec.width)]
        wire := u.wire.drop messageCodec.width } := by
  have hpos := messageCodec_width_pos
  unfold Upstream.receive at h
  split at h
  · cases h
  · simp only [hpos.ne', if_false, lt_irrefl] at h
    split at h
    · rename_i hchunk
      exact ⟨(Reply.chunk_iff.mp hchunk).2.2, (Option.some.inj h).symm⟩
    · cases h

theorem Intact.receive (hu : u.Intact) (hwire : messageCodec.width ≤ u.wire.length) :
    messageCodec.stream (u.handled ++ [messageCodec.decode (u.wire.take messageCodec.width)])
      ++ (u.wire.drop messageCodec.width ++ u.writing) = messageCodec.stream u.begun := by
  have hlength : (u.wire.take messageCodec.width).length = messageCodec.width := by
    rw [List.length_take]
    omega
  unfold Intact at hu
  rw [Codec.stream_concat, messageCodec.encode_decode _ hlength, ← hu, List.append_assoc,
    ← List.append_assoc (u.wire.take _), List.take_append_drop]

/-- What holds of a connection whatever has become of its two ends. -/
structure Ordered (u : Upstream) : Prop where
  handled_prefix : u.handled <+: u.begun
  intact : u.dropped = false → u.Intact

theorem Ordered.sends (hu : u.Ordered) (h : Sends u v) : v.Ordered where
  handled_prefix := by
    rw [h.handled_eq]
    exact hu.handled_prefix.trans h.begun_prefix
  intact hlive := h.intact (hu.intact (h.dropped_eq ▸ hlive))

theorem Ordered.receive {r : Reply} (hu : u.Ordered) (h : u.receive r = some v) :
    v.Ordered := by
  rcases receive_cases h with ⟨hhandled, hbegun, hdropped | rfl⟩ | ⟨hlive, hwire, rfl⟩
  · refine ⟨?_, ?_⟩
    · rw [hhandled, hbegun]
      exact hu.handled_prefix
    · intro hlive
      rw [hdropped] at hlive
      cases hlive
  · exact hu
  · have hbytes := (hu.intact hlive).receive hwire
    exact ⟨prefix_of_bytes hbytes, fun _ => hbytes⟩

theorem Ordered.step {e : Event} (hu : u.Ordered) (hok : u.Whole e) (h : Step u e v) :
    v.Ordered := by
  cases e with
  | begin m => exact hu.sends (begin_sends h)
  | write r => exact hu.sends (write_sends h)
  | report m r => exact hu.sends (report_sends hok h)
  | receive r => exact hu.receive h

theorem ordered_of_reaches (h : Transition.Reaches (Transition.guarded Step Whole) {} u) :
    u.Ordered :=
  h.invariant (fun _ _ _ hstep hu => hu.step hstep.1 hstep.2) ⟨List.prefix_rfl, fun _ => rfl⟩

end Upstream

/-! ## From the scheduler to a client -/

namespace Downstream

variable {d d' : Downstream}

/-- No message is cut short. -/
def Whole (_ : Downstream) : Event → Prop
  | .send _ (.moved n) => n = messageCodec.width
  | _ => True

instance (d : Downstream) (e : Event) : Decidable (d.Whole e) :=
  match e with
  | .send _ (.moved _) => inferInstanceAs (Decidable (_ = _))
  | .send _ .interrupted | .send _ .failed => .isTrue trivial
  | .close | .read _ | .take => .isTrue trivial

/-- The bytes of the messages handled, those read of the next one and those under way are the
bytes of the messages sent. -/
structure Ordered (d : Downstream) : Prop where
  intact : messageCodec.stream d.handled ++ (d.buffer ++ d.wire) = messageCodec.stream d.sent
  buffer_le : d.buffer.length ≤ messageCodec.width

theorem Ordered.put {m : Message} (hd : d.Ordered) : (d.put m messageCodec.width).Ordered := by
  have hall : (messageCodec.encode m).take messageCodec.width = messageCodec.encode m :=
    List.take_of_length_le (messageCodec.length_encode m).le
  refine ⟨?_, hd.buffer_le⟩
  simp only [Downstream.put]
  rw [hall, Codec.stream_concat, ← hd.intact, List.append_assoc, List.append_assoc]

theorem Ordered.send {m : Message} {r : Reply} (hd : d.Ordered) (hok : d.Whole (.send m r))
    (h : d.send m r = some d') : d'.Ordered := by
  unfold Downstream.send at h
  split at h
  · cases h
  · cases r with
    | moved n =>
        have hn : n = messageCodec.width := hok
        simp only at h
        split at h
        · rw [← Option.some.inj h, hn]
          exact hd.put
        · cases h
    | interrupted => exact Option.some.inj h ▸ hd
    | failed => exact Option.some.inj h ▸ hd

theorem Ordered.read {r : Reply} (hd : d.Ordered) (h : d.read r = some d') : d'.Ordered := by
  unfold Downstream.read at h
  split at h
  · cases h
  · cases r with
    | moved n =>
        simp only at h
        split at h
        · split at h
          · exact Option.some.inj h ▸ ⟨hd.intact, hd.buffer_le⟩
          · cases h
        · split at h
          · rename_i hchunk
            obtain ⟨-, hle, -⟩ := Reply.chunk_iff.mp hchunk
            rw [← Option.some.inj h]
            refine ⟨?_, ?_⟩
            · simp only
              rw [List.append_assoc, List.take_append_drop, hd.intact]
            · have hbuffer := hd.buffer_le
              simp only [List.length_append, List.length_take]
              omega
          · cases h
    | interrupted => exact Option.some.inj h ▸ hd
    | failed => exact Option.some.inj h ▸ ⟨hd.intact, hd.buffer_le⟩

theorem read_lists {n : ℕ} (h : d.read (.moved n) = some d') :
    d'.sent = d.sent ∧ d'.handled = d.handled := by
  unfold Downstream.read at h
  split at h
  · cases h
  · simp only at h
    split at h
    · split at h
      · exact Option.some.inj h ▸ ⟨rfl, rfl⟩
      · cases h
    · split at h
      · exact Option.some.inj h ▸ ⟨rfl, rfl⟩
      · cases h

/-- The client goes on with a message only when it is there as a whole. -/
theorem take_cases (h : d.take = some d') : messageCodec.width ≤ d.buffer.length ∧
    d' = { d with handled := d.handled ++ [messageCodec.decode d.buffer], buffer := [] } := by
  unfold Downstream.take at h
  split at h
  · cases h
  · rename_i hfull
    simp only [Bool.or_eq_true, decide_eq_true_eq, not_or, not_lt] at hfull
    exact ⟨hfull.2, (Option.some.inj h).symm⟩

theorem Ordered.take (hd : d.Ordered) (h : d.take = some d') : d'.Ordered := by
  obtain ⟨hfull, rfl⟩ := take_cases h
  have hlength : d.buffer.length = messageCodec.width := le_antisymm hd.buffer_le hfull
  refine ⟨?_, Nat.zero_le _⟩
  simp only
  rw [Codec.stream_concat, messageCodec.encode_decode _ hlength, List.nil_append,
    List.append_assoc, hd.intact]

theorem Ordered.step {e : Event} (hd : d.Ordered) (hok : d.Whole e) (h : Step d e d') :
    d'.Ordered := by
  cases e with
  | send m r => exact hd.send hok h
  | close => exact Option.some.inj h ▸ ⟨hd.intact, hd.buffer_le⟩
  | read r => exact hd.read h
  | take => exact hd.take h

theorem ordered_of_reaches (h : Transition.Reaches (Transition.guarded Step Whole) {} d) :
    d.Ordered :=
  h.invariant (fun _ _ _ hstep hd => hd.step hstep.1 hstep.2) ⟨rfl, Nat.zero_le _⟩

end Downstream

/-! ## Both directions -/

/-- Whatever parts of its reads and writes the kernel carries out, interrupts or fails: the
scheduler handles the messages that a client has begun to send, and the client those that the
scheduler has sent, in their order, each at most once and never in parts; and as long as
the scheduler has not given the client up, what is not handled yet is still under way. -/
theorem messages_in_order {u : Upstream} {d : Downstream}
    (hup : Transition.Reaches (Transition.guarded Upstream.Step Upstream.Whole) {} u)
    (hdown : Transition.Reaches (Transition.guarded Downstream.Step Downstream.Whole) {} d) :
    (u.handled <+: u.begun ∧
      (u.dropped = false → u.writing = [] → u.wire = [] → u.handled = u.begun)) ∧
    d.handled <+: d.sent ∧ (d.buffer = [] → d.wire = [] → d.handled = d.sent) := by
  have hu := Upstream.ordered_of_reaches hup
  have hd := Downstream.ordered_of_reaches hdown
  refine ⟨⟨hu.handled_prefix, ?_⟩, prefix_of_bytes hd.intact, ?_⟩
  · intro hlive hwriting hwire
    have hbytes := hu.intact hlive
    unfold Upstream.Intact at hbytes
    rw [hwriting, hwire, List.append_nil, List.append_nil] at hbytes
    exact eq_of_bytes hbytes
  · intro hbuffer hwire
    have hbytes := hd.intact
    rw [hbuffer, hwire, List.append_nil, List.append_nil] at hbytes
    exact eq_of_bytes hbytes

/-- REGISTER is written in two parts, the reply is read in three. -/
theorem messages_in_order_parts : ∃ u d,
    Transition.Reaches (Transition.guarded Upstream.Step Upstream.Whole) {} u ∧
      Transition.Reaches (Transition.guarded Downstream.Step Downstream.Whole) {} d ∧
      u.begun.length = 2 ∧ u.handled = u.begun ∧ d.sent.length = 1 ∧ d.handled = d.sent := by
  have hup : (Transition.execute (Transition.attempt Upstream.handle Upstream.Whole)
      [.begin {}, .write (.moved 300), .write .interrupted, .write (.moved 359),
        .report {} (.moved 659), .receive (.moved 659), .receive .interrupted,
        .receive (.moved 659)] {}).any (fun u => u.dropped = false ∧ u.writing = [] ∧
          u.wire = [] ∧ u.begun.length = 2) = true := by
    decide +kernel
  have hdown : (Transition.execute (Transition.attempt Downstream.handle Downstream.Whole)
      [.send {} (.moved 659), .read (.moved 1), .read (.moved 600), .read .interrupted,
        .read (.moved 58), .take] {}).any (fun d => d.buffer = [] ∧ d.wire = [] ∧
          d.sent.length = 1) = true := by
    decide +kernel
  rw [Option.any_eq_true] at hup hdown
  obtain ⟨u, hu, hpropu⟩ := hup
  obtain ⟨d, hd, hpropd⟩ := hdown
  rw [decide_eq_true_eq] at hpropu hpropd
  obtain ⟨hlive, hwriting, hwire, hbegun⟩ := hpropu
  obtain ⟨hbuffer, hempty, hsent⟩ := hpropd
  have hreachu : Transition.Reaches (Transition.guarded Upstream.Step Upstream.Whole) {} u :=
    Transition.Reaches.of_attempts (fun _ _ _ h => h) hu
  have hreachd : Transition.Reaches (Transition.guarded Downstream.Step Downstream.Whole) {} d :=
    Transition.Reaches.of_attempts (fun _ _ _ h => h) hd
  obtain ⟨⟨-, hall⟩, -, hrest⟩ := messages_in_order hreachu hreachd
  exact ⟨u, d, hreachu, hreachd, hbegun, hall hlive hwriting hwire, hsent, hrest hbuffer hempty⟩

end XpuShare
