import Mathlib.Data.List.TakeWhile
import XpuShare.Model.Comm
import XpuShare.Model.System

/-! # Messages survive the wire

What one side reads from the bytes of a message is what the other side meant by it. -/

namespace XpuShare

open Printf

/-! ## Strings -/

theorem untilNul_append {text rest : List UInt8} (h : ∀ b ∈ text, b ≠ 0) :
    untilNul (text ++ 0 :: rest) = text := by
  unfold untilNul
  rw [List.takeWhile_append_of_pos (by simpa using h)]
  simp

/-- What `strlcpy` leaves in a buffer is as much of the text as fits before the NUL. -/
theorem untilNul_strlcpyBytes {dst src : List UInt8} (hdst : dst ≠ [])
    (hsrc : ∀ b ∈ src, b ≠ 0) :
    untilNul (strlcpyBytes dst src) = src.take (dst.length - 1) := by
  fun_induction strlcpyBytes dst src with
  | case1 => exact absurd rfl hdst
  | case2 => rfl
  | case3 => simp [untilNul]
  | case4 a dst b src hne ih =>
      have hb : b ≠ 0 := hsrc b List.mem_cons_self
      have htail := ih (by simpa using hne) fun d hd => hsrc d (List.mem_cons_of_mem b hd)
      have hlength : (a :: dst).length - 1 = dst.length - 1 + 1 := by
        have hpos : 0 < dst.length := List.length_pos_iff.mpr (by simpa using hne)
        rw [List.length_cons]
        omega
      rw [hlength, List.take_succ_cons, ← htail]
      simp [untilNul, hb]

/-- A text that fits stands in the buffer with its NUL. -/
theorem strlcpyBytes_whole {dst src : List UInt8} (h : src.length < dst.length) :
    ∃ tail, strlcpyBytes dst src = src ++ 0 :: tail := by
  fun_induction strlcpyBytes dst src with
  | case1 => exact absurd h (Nat.not_lt_zero _)
  | case2 a src =>
      have hnil : src = [] := List.length_eq_zero_iff.mp (Nat.lt_one_iff.mp h)
      exact ⟨[], by rw [hnil, List.nil_append]⟩
  | case3 a dst hne => exact ⟨dst, rfl⟩
  | case4 a dst b src hne ih =>
      obtain ⟨tail, htail⟩ := ih (Nat.lt_of_succ_lt_succ h)
      exact ⟨tail, by rw [htail, List.cons_append]⟩

theorem toUInt8_toNat {ch : Char} (h : ch.toNat < 256) : ch.toUInt8.toNat = ch.toNat :=
  Nat.mod_eq_of_lt h

theorem ofNat_toUInt8 {ch : Char} (h : ch.toNat < 256) : Char.ofNat ch.toUInt8.toNat = ch := by
  rw [toUInt8_toNat h, Char.ofNat_toNat]

/-- The array holds as much of the text as `strlcpy` on texts says. -/
theorem textOf_copyText {n : ℕ} (hn : 0 < n) (dst : Vector UInt8 n) {text : String}
    (h : ∀ ch ∈ text.toList, ch.toNat < 256 ∧ ch.toNat ≠ 0) :
    textOf (untilNul (copyText dst text).toList) = strlcpy text n := by
  have hcopy : (copyText dst text).toList = strlcpyBytes dst.toList (bytesOf text) := rfl
  have hdst : dst.toList ≠ [] := by
    rw [← List.length_pos_iff, Vector.length_toList]
    exact hn
  have hsrc : ∀ b ∈ bytesOf text, b ≠ 0 := by
    intro b hb hzero
    obtain ⟨ch, hch, rfl⟩ := List.mem_map.mp hb
    obtain ⟨hlt, hne⟩ := h ch hch
    apply hne
    rw [← toUInt8_toNat hlt, hzero]
    rfl
  have hback : (bytesOf text).map (fun b => Char.ofNat b.toNat) = text.toList := by
    unfold bytesOf
    rw [List.map_map]
    conv_rhs => rw [← List.map_id text.toList]
    apply List.map_congr_left
    intro ch hch
    exact ofNat_toUInt8 (h ch hch).1
  rw [hcopy, untilNul_strlcpyBytes hdst hsrc, Vector.length_toList, textOf, strlcpy,
    List.map_take, hback]

theorem FitsArray.textOf_copyText {n : ℕ} {text : String} (h : FitsArray n text)
    (dst : Vector UInt8 n) : textOf (untilNul (copyText dst text).toList) = text := by
  have hn : 0 < n := Nat.zero_lt_of_lt h.1
  have hall : text.toList.take (n - 1) = text.toList :=
    List.take_of_length_le (Nat.le_sub_one_of_lt h.1)
  rw [XpuShare.textOf_copyText hn dst h.2, strlcpy, hall, String.ofList_toList]

/-! ## Identifiers -/

/-- The character of a hexadecimal digit. -/
def hexChar (d : ℕ) : Char := Char.ofNat (hexDigit d).toNat

theorem hexChar_spec {d : ℕ} (h : d < 16) :
    isHexDigit (hexChar d) = true ∧ digitValue (hexChar d) = d ∧ isSpace (hexChar d) = false ∧
      hexChar d ≠ '-' ∧ hexChar d ≠ '+' ∧ hexChar d ≠ 'x' ∧ hexChar d ≠ 'X' := by
  interval_cases d <;> decide

theorem hexDigit_ne_zero {d : ℕ} (h : d < 16) : hexDigit d ≠ 0 := by
  interval_cases d <;> decide

/-- The sixteen digits of a number, the highest first. -/
def hexChars (n : ℕ) : List Char := (List.range 16).reverse.map fun i => hexChar (n / 16 ^ i % 16)

theorem ofDigits_foldl (base : ℕ) (digits : List Char) (acc : ℕ) :
    digits.foldl (fun n ch => base * n + digitValue ch) acc =
      base ^ digits.length * acc + ofDigits base digits := by
  induction digits generalizing acc with
  | nil => simp [ofDigits]
  | cons ch digits ih =>
      rw [ofDigits, List.foldl_cons, List.foldl_cons, ih, ih (base * 0 + digitValue ch),
        List.length_cons]
      ring

theorem ofDigits_cons (base : ℕ) (ch : Char) (digits : List Char) :
    ofDigits base (ch :: digits) = base ^ digits.length * digitValue ch + ofDigits base digits := by
  rw [ofDigits, List.foldl_cons, ofDigits_foldl, Nat.mul_zero, Nat.zero_add]

theorem ofDigits_hex (n k : ℕ) :
    ofDigits 16 ((List.range k).reverse.map fun i => hexChar (n / 16 ^ i % 16)) = n % 16 ^ k := by
  induction k with
  | zero => simp [ofDigits, Nat.mod_one]
  | succ k ih =>
      have hd : n / 16 ^ k % 16 < 16 := Nat.mod_lt _ (by norm_num)
      rw [List.range_succ, List.reverse_concat, List.map_cons, ofDigits_cons, ih,
        (hexChar_spec hd).2.1, List.length_map, List.length_reverse, List.length_range, pow_succ,
        Nat.mod_mul]
      ring

theorem hexChars_cons (n : ℕ) : ∃ d d' rest, d < 16 ∧ d' < 16 ∧
    hexChars n = hexChar d :: hexChar d' :: rest :=
  ⟨n / 16 ^ 15 % 16, n / 16 ^ 14 % 16, _, Nat.mod_lt _ (by norm_num),
    Nat.mod_lt _ (by norm_num), rfl⟩

theorem hexChars_isHexDigit (n : ℕ) : ∀ ch ∈ hexChars n, isHexDigit ch = true := by
  intro ch hch
  obtain ⟨i, -, rfl⟩ := List.mem_map.mp hch
  exact (hexChar_spec (Nat.mod_lt _ (by norm_num))).1

/-- `sscanf` reads the identifier that `snprintf` has written. -/
theorem scanId_hexChars {n : ℕ} (h : FitsSize n) : scanId (hexChars n) = some n := by
  have hlt : n < 16 ^ 16 := by
    unfold FitsSize sizeMod at h
    omega
  have hvalue : ofDigits 16 (hexChars n) = n := by
    rw [hexChars, ofDigits_hex, Nat.mod_eq_of_lt hlt]
  have hdigits : (hexChars n).takeWhile isHexDigit = hexChars n :=
    List.takeWhile_eq_self_iff.mpr (hexChars_isHexDigit n)
  obtain ⟨d, d', rest, hd, hd', heq⟩ := hexChars_cons n
  obtain ⟨-, -, hspace, hminus, hplus, -, -⟩ := hexChar_spec hd
  obtain ⟨-, -, -, -, -, hx, hX⟩ := hexChar_spec hd'
  have htrim : (hexChars n).dropWhile isSpace = hexChars n := by
    rw [heq, List.dropWhile_cons_of_neg (by simp [hspace])]
  have hsign : splitSign (hexChars n) = (false, hexChars n) := by
    rw [heq]
    unfold splitSign
    split
    · rename_i hcons
      exact absurd (List.cons.inj hcons).1 hminus
    · rename_i hcons
      exact absurd (List.cons.inj hcons).1 hplus
    · rfl
  have hbody : hexBody (hexChars n) = none := by
    rw [heq]
    unfold hexBody
    split
    · rename_i hcons
      have hsecond := (List.cons.inj (List.cons.inj hcons).2).1
      rw [if_neg]
      rintro ⟨hor | hor, -⟩
      · exact hx (hsecond.trans hor)
      · exact hX (hsecond.trans hor)
    · rfl
  have hne : hexChars n ≠ [] := by simp [heq]
  unfold scanId
  rw [htrim, hsign]
  simp only [hbody, Option.getD_none, hdigits, hvalue, hne, if_false]
  rw [if_neg (by unfold FitsSize at h; omega)]
  rfl

/-- The text at `data` in the reply to REGISTER is the identifier. -/
theorem dataText_printId {m : Message} {data : Vector UInt8 msgDataLen} {id : UInt64}
    (h : m.data = printId data id) : m.dataText = hexChars id.toNat := by
  have hne : ∀ b ∈ hex16 id, b ≠ 0 := by
    intro b hb
    obtain ⟨i, -, rfl⟩ := List.mem_map.mp hb
    exact hexDigit_ne_zero (Nat.mod_lt _ (by norm_num))
  have hlist : m.data.toList = hex16 id ++ 0 :: data.toList.drop 17 := by
    rw [h]
    rfl
  unfold Message.dataText
  simp only [hlist, List.append_assoc, List.cons_append]
  rw [untilNul_append hne, textOf, String.toList_ofList, hex16, List.map_map]
  rfl

theorem dataText_zeros {m : Message} (h : m.data = zeros msgDataLen) : m.dataText = [] := by
  have hlist : m.data.toList = 0 :: List.replicate 19 0 := by
    rw [h]
    rfl
  unfold Message.dataText
  simp only [hlist, List.cons_append]
  have hnil (rest : List UInt8) : untilNul (0 :: rest) = [] := by
    have h : untilNul ([] ++ 0 :: rest) = [] := untilNul_append (by simp)
    exact h
  rw [hnil]
  rfl

/-! ## Round trips -/

theorem toNat_ofNat_of_fits {n : ℕ} (h : FitsSize n) : (UInt64.ofNat n).toNat = n :=
  UInt64.toNat_ofNat_of_lt h

theorem toInt_ofInt_of_fits {z : ℤ} (h : FitsInt z) : (Int32.ofInt z).toInt = z :=
  Int32.toInt_ofInt_of_le h.1 h.2

/-- A client reads the initial status as the scheduler meant it. -/
theorem initialStatus_message {m : ToClient} (h : m.Fits) (rest : Message) (r : LibState) :
    (m.message rest).initialStatus r = XpuShare.initialStatus m r := by
  cases m with
  | status on id coreLimit =>
      have hid : scanId (((ToClient.status on id coreLimit).message rest).dataText) = some id := by
        rw [dataText_printId rfl, toNat_ofNat_of_fits h.1]
        exact scanId_hexChars h.1
      have hcore : ((ToClient.status on id coreLimit).message rest).coreLimit.toInt = coreLimit :=
        toInt_ofInt_of_fits h.2
      unfold Message.initialStatus
      rw [hid, hcore]
      cases on <;> rfl
  | schedOn =>
      have htext : (ToClient.schedOn.message rest).dataText = [] := dataText_zeros rfl
      unfold Message.initialStatus
      rw [htext]
      rfl
  | schedOff =>
      have htext : (ToClient.schedOff.message rest).dataText = [] := dataText_zeros rfl
      unfold Message.initialStatus
      rw [htext]
      rfl
  | lockOk => rfl
  | dropLock => rfl
  | waitForMem => rfl
  | memAvailable => rfl
  | updateLimit limit => rfl
  | updateCoreLimit limit => rfl

/-- A client reads every later message as the scheduler meant it. -/
theorem toClient_message {m : ToClient} (h : m.Fits) (rest : Message) (r : LibState) :
    (m.message rest).toClient.elim (r, []) (fun t => handleMessage t r) = handleMessage m r := by
  cases m with
  | status on id coreLimit => cases on <;> rfl
  | updateLimit limit =>
      have hread : ((ToClient.updateLimit limit).message rest).toClient =
          some (.updateLimit (UInt64.ofNat limit).toNat) := rfl
      rw [hread, toNat_ofNat_of_fits h]
      rfl
  | updateCoreLimit limit =>
      have hread : ((ToClient.updateCoreLimit limit).message rest).toClient =
          some (.updateCoreLimit (Int32.ofInt limit).toInt) := rfl
      rw [hread, toInt_ofInt_of_fits h]
      rfl
  | _ => rfl

theorem clientFn_message {m : ToClient} (h : m.Fits) (rest : Message) (r : LibState) :
    (m.message rest).clientFn r = XpuShare.clientFn m r := by
  unfold Message.clientFn XpuShare.clientFn
  split
  · rw [toClient_message h]
  · rw [initialStatus_message h]

/-- The scheduler reads every message as the client meant it. -/
theorem fromClient_message {m : ToScheduler} (h : m.Fits) (id : UInt64) (e : RegisterEnv) :
    (m.message id).fromClient e = m.received e := by
  cases m with
  | register m =>
      have hname := h.podName.textOf_copyText (zeros podNameLenMax)
      have hspace := h.podNamespace.textOf_copyText (zeros podNamespaceLenMax)
      have huuid := h.gpuUuid.textOf_copyText (zeros gpuUuidLen)
      have hpid := toInt_ofInt_of_fits h.hostPid
      have hread : ((ToScheduler.register m).message id).fromClient e = .register
          { podName := textOf (untilNul (copyText (zeros podNameLenMax) m.podName).toList)
            podNamespace :=
              textOf (untilNul (copyText (zeros podNamespaceLenMax) m.podNamespace).toList)
            gpuUuid := textOf (untilNul (copyText (zeros gpuUuidLen) m.gpuUuid).toList)
            hostPid := (Int32.ofInt m.hostPid).toInt } e := rfl
      rw [hread, hname, hspace, huuid, hpid]
      rfl
  | reqLock => rfl
  | lockReleased => rfl
  | memUpdate usage =>
      have hread : ((ToScheduler.memUpdate usage).message id).fromClient e =
          .memUpdate (UInt64.ofNat usage).toNat := rfl
      rw [hread, toNat_ofNat_of_fits h]
      rfl

end XpuShare
