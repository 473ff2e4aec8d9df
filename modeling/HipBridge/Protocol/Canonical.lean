import HipBridge.Protocol.Framing

/-!
# What the request decoder accepts

The converse of the wire round trip: which frames are read as a request, and whether the
encoder would have written them.

* **`Decoded`** — the three ways `decodeBody` ends: a request, `InvalidData`, or the overflow
  of `24 + data_len`.
* **`Request.readFrom_grown`** — what is read does not depend on the bytes behind it.
* **`Request.readFrom_cases`** — a stream with a request at its front is a frame whose body
  decodes, followed by what is left.
* **`request_encoding_unique`** — an accepted frame is the encoder's, except that a
  `DeviceCount` frame may have a body.
-/

namespace HipBridge.Protocol

open Lib

/-- The data length a `MemcpyH2D` body declares. -/
def declaredLen (body : List UInt8) : Nat := (u64FromLe ((body.drop 16).take 8)).toNat

/-- A `MemcpyH2D` body with a declared length that `24 + data_len` cannot hold. -/
def OverflowingCopy (opcode : UInt8) (body : List UInt8) : Prop :=
  opcode = 5 ∧ 24 ≤ body.length ∧ usizeMax < 24 + declaredLen body

instance (opcode : UInt8) (body : List UInt8) : Decidable (OverflowingCopy opcode body) :=
  inferInstanceAs (Decidable (_ ∧ _ ∧ _))

/-- A `DeviceCount` frame with a body, which `read_from` does not look at. -/
def IgnoredBody (opcode : UInt8) (body : List UInt8) : Prop := opcode = 1 ∧ body ≠ []

instance (opcode : UInt8) (body : List UInt8) : Decidable (IgnoredBody opcode body) :=
  inferInstanceAs (Decidable (_ ∧ _))

/-- The ways the `match` of `Request::read_from` ends. -/
inductive Decoded (opcode : UInt8) (body : List UInt8) : Io Request → Prop
  | request (r : Request) (hopcode : r.opcode = opcode)
      (hbody : IgnoredBody opcode body ∨ r.encodeBody = body)
      (hcopy : ¬ OverflowingCopy opcode body) : Decoded opcode body (.ok r)
  | rejected (message : String) (hcopy : ¬ OverflowingCopy opcode body) :
      Decoded opcode body (invalidData message)
  | overflowed (message : String) (hcopy : OverflowingCopy opcode body) :
      Decoded opcode body (.error (.panic message))

section Variants

variable {body : List UInt8}

/-- A body of exactly one 32-bit field. -/
theorem i32At_whole (h : body.length = 4) : ∃ x, i32At body 0 = .ok x ∧ i32ToLe x = body := by
  obtain ⟨x, hx, hbody⟩ := @u32At_ok body 0 (by omega)
  refine ⟨x.toInt32, ?_, ?_⟩
  · rw [i32At, hx]
    rfl
  · rw [List.drop_zero, List.drop_eq_nil_of_le (by omega), List.append_nil] at hbody
    rw [hbody, i32ToLe, UInt32.toUInt32_toInt32]

/-- A body of exactly one 64-bit field. -/
theorem u64At_whole (h : body.length = 8) : ∃ x, u64At body 0 = .ok x ∧ u64ToLe x = body := by
  obtain ⟨x, hx, hbody⟩ := @u64At_ok body 0 (by omega)
  rw [List.drop_zero, List.drop_eq_nil_of_le (by omega), List.append_nil] at hbody
  exact ⟨x, hx, hbody.symm⟩

/-- A variant whose body is one field of a fixed length. -/
theorem decoded_field {α : Type} {opcode : UInt8} {n : Nat} {message : String} {field : Io α}
    (variant : α → Request) (hopcode : ∀ x, (variant x).opcode = opcode)
    (hcopy : ¬ OverflowingCopy opcode body)
    (hfield : body.length = n → ∃ x, field = .ok x ∧ (variant x).encodeBody = body) :
    Decoded opcode body
      (if body.length ≠ n then invalidData message else field >>= fun x => pure (variant x)) := by
  split
  case isTrue => exact .rejected message hcopy
  case isFalse hlen =>
    obtain ⟨x, hx, hbody⟩ := hfield (Decidable.not_not.mp hlen)
    rw [hx, Io.ok_bind]
    exact .request (variant x) (hopcode x) (.inr hbody) hcopy

/-- The three 64-bit fields both copies start with. -/
theorem u64At_three (h : 24 ≤ body.length) :
    ∃ x y z, u64At body 0 = .ok x ∧ u64At body 8 = .ok y ∧ u64At body 16 = .ok z ∧
      z.toNat = declaredLen body ∧
      body = u64ToLe x ++ (u64ToLe y ++ (u64ToLe z ++ body.drop 24)) := by
  obtain ⟨x, hx, hdropx⟩ := @u64At_ok body 0 (by omega)
  obtain ⟨y, hy, hdropy⟩ := @u64At_ok body 8 (by omega)
  obtain ⟨z, hz, hdropz⟩ := @u64At_ok body 16 (by omega)
  refine ⟨x, y, z, hx, hy, hz, ?_, ?_⟩
  · rw [u64At, if_pos (by omega)] at hz
    rw [declaredLen, Except.ok.inj hz]
  · rw [← hdropz, ← hdropy, ← hdropx, List.drop_zero]

theorem decoded_memcpyH2D : Decoded 5 body (decodeBody 5 body) := by
  show Decoded 5 body (if body.length < 24 then _ else _)
  split
  case isTrue hshort =>
    refine .rejected _ ?_
    rintro ⟨-, hlong, -⟩
    omega
  case isFalse hlong =>
    obtain ⟨x, y, z, hx, hy, hz, hlen, hbody⟩ := u64At_three (Nat.le_of_not_lt hlong)
    simp only [hx, hy, hz, Io.ok_bind, hlen]
    by_cases hoverflow : usizeMax < 24 + declaredLen body
    · rw [usizeAdd, if_neg (by omega), Io.error_bind]
      exact .overflowed _ ⟨rfl, by omega, hoverflow⟩
    · have hcopy : ¬ OverflowingCopy 5 body := fun h => hoverflow h.2.2
      rw [usizeAdd, if_pos (by omega), Io.ok_bind]
      split
      case isTrue => exact .rejected _ hcopy
      case isFalse hexact =>
        -- the declared length is the length of the data, so it is what the encoder declares
        have hdata : UInt64.ofNat (body.drop 24).length = z := by
          have hz : (body.drop 24).length = z.toNat := by
            rw [List.length_drop]
            omega
          rw [hz, UInt64.ofNat_toNat]
        refine .request _ rfl (.inr ?_) hcopy
        rw [Request.encodeBody, hdata]
        exact hbody.symm

/-- The fixup loop reads a table that lies in the body. Induction on the number of entries. -/
theorem readFixups_ok {n cursor : Nat} (h : cursor + 20 * n ≤ body.length) :
    ∃ fixups, readFixups body n cursor = .ok fixups ∧ fixups.length = n ∧
      body.drop cursor = fixups.flatMap encodeFixup ++ body.drop (cursor + 20 * n) := by
  induction n generalizing cursor with
  | zero => exact ⟨[], rfl, rfl, rfl⟩
  | succ n ih =>
    obtain ⟨off, hoff, hdropOff⟩ := @u32At_ok body cursor (by omega)
    obtain ⟨handle, hhandle, hdropHandle⟩ := @u64At_ok body (cursor + 4) (by omega)
    obtain ⟨intra, hintra, hdropIntra⟩ := @u64At_ok body (cursor + 12) (by omega)
    obtain ⟨fixups, hfixups, hlen, hrest⟩ := @ih (cursor + 20) (by omega)
    have hend : cursor + 20 * (n + 1) = cursor + 20 + 20 * n := by omega
    refine ⟨(off, handle, intra) :: fixups, ?_, by rw [List.length_cons, hlen], ?_⟩
    · rw [readFixups, hoff, Io.ok_bind, hhandle, Io.ok_bind, hintra, Io.ok_bind, hfixups]
      rfl
    · rw [hend, List.flatMap_cons, List.append_assoc, ← hrest, encodeFixup]
      simp only [List.append_assoc]
      rw [← hdropIntra, ← hdropHandle, ← hdropOff]

/-- The fixed fields of a launch body, one after the other. -/
theorem launch_fields_ok (h : 40 ≤ body.length) :
    ∃ function gx gy gz bx bY bz sharedMem num,
      u64At body 0 = .ok function ∧ u32At body 8 = .ok gx ∧ u32At body 12 = .ok gy ∧
      u32At body 16 = .ok gz ∧ u32At body 20 = .ok bx ∧ u32At body 24 = .ok bY ∧
      u32At body 28 = .ok bz ∧ u32At body 32 = .ok sharedMem ∧ u32At body 36 = .ok num ∧
      body = launchHeader function (gx, gy, gz) (bx, bY, bz) sharedMem num ++ body.drop 40 := by
  obtain ⟨function, hfunction, hdrop0⟩ := @u64At_ok body 0 (by omega)
  obtain ⟨gx, hgx, hdrop8⟩ := @u32At_ok body 8 (by omega)
  obtain ⟨gy, hgy, hdrop12⟩ := @u32At_ok body 12 (by omega)
  obtain ⟨gz, hgz, hdrop16⟩ := @u32At_ok body 16 (by omega)
  obtain ⟨bx, hbx, hdrop20⟩ := @u32At_ok body 20 (by omega)
  obtain ⟨bY, hbY, hdrop24⟩ := @u32At_ok body 24 (by omega)
  obtain ⟨bz, hbz, hdrop28⟩ := @u32At_ok body 28 (by omega)
  obtain ⟨sharedMem, hmem, hdrop32⟩ := @u32At_ok body 32 (by omega)
  obtain ⟨num, hnum, hdrop36⟩ := @u32At_ok body 36 (by omega)
  refine ⟨function, gx, gy, gz, bx, bY, bz, sharedMem, num, hfunction, hgx, hgy, hgz, hbx, hbY,
    hbz, hmem, hnum, ?_⟩
  simp only [launchHeader, List.append_assoc]
  rw [← hdrop36, ← hdrop32, ← hdrop28, ← hdrop24, ← hdrop20, ← hdrop16, ← hdrop12, ← hdrop8,
    ← hdrop0, List.drop_zero]

theorem decoded_launchKernel : Decoded 10 body (decodeBody 10 body) := by
  have hcopy : ¬ OverflowingCopy 10 body := fun h => absurd h.1 (by decide)
  show Decoded 10 body (if body.length < 40 then _ else _)
  split
  case isTrue => exact .rejected _ hcopy
  case isFalse hlong =>
    obtain ⟨function, gx, gy, gz, bx, bY, bz, sharedMem, num, hfunction, hgx, hgy, hgz, hbx, hbY,
      hbz, hmem, hnum, hbody⟩ := launch_fields_ok (Nat.le_of_not_lt hlong)
    have hlt : num.toNat < 2 ^ 32 := num.toNat_lt
    -- a 32-bit count overflows neither the table's length nor its end
    have hmul : checkedMul num.toNat 20 = some (num.toNat * 20) :=
      if_pos (by unfold usizeMax; omega)
    have hadd : checkedAdd 40 (num.toNat * 20) = some (40 + num.toNat * 20) :=
      if_pos (by unfold usizeMax; omega)
    have halloc : allocVec roomy 24 num.toNat = .ok () :=
      allocVec_ok (canAlloc_roomy (by unfold isizeMax; omega))
    simp only [hfunction, hgx, hgy, hgz, hbx, hbY, hbz, hmem, hnum, Io.ok_bind, hmul, orOverflow,
      hadd]
    split
    case isTrue => exact .rejected _ hcopy
    case isFalse hwhole =>
      obtain ⟨fixups, hfixups, hlen, htable⟩ := @readFixups_ok body num.toNat 40 (by omega)
      rw [halloc, Io.ok_bind, hfixups, Io.ok_bind]
      refine .request _ rfl (.inr ?_) hcopy
      rw [encodeBody_launchKernel, hlen, UInt32.ofNat_toNat, Nat.mul_comm num.toNat 20, ← htable]
      exact hbody.symm

/-- **The decoder's cases.** Every body of every opcode. -/
theorem decodeBody_decoded (opcode : UInt8) (body : List UInt8) :
    Decoded opcode body (decodeBody opcode body) := by
  have hother : opcode ≠ 5 → ¬ OverflowingCopy opcode body := fun hne h => hne h.1
  unfold decodeBody
  split
  case h_1 =>
    refine .request _ rfl ?_ (hother (by decide))
    by_cases hempty : body = []
    · exact .inr hempty.symm
    · exact .inl ⟨rfl, hempty⟩
  case h_2 => exact decoded_field .setDevice (fun _ => rfl) (hother (by decide)) i32At_whole
  case h_3 => exact decoded_field .malloc (fun _ => rfl) (hother (by decide)) u64At_whole
  case h_4 => exact decoded_field .free (fun _ => rfl) (hother (by decide)) u64At_whole
  case h_5 => exact decoded_memcpyH2D
  case h_6 =>
    split
    case isTrue => exact .rejected _ (hother (by decide))
    case isFalse hlen =>
      obtain ⟨x, y, z, hx, hy, hz, -, hbody⟩ :=
        @u64At_three body (by rw [Decidable.not_not.mp hlen])
      rw [List.drop_eq_nil_of_le (by omega), List.append_nil] at hbody
      rw [hx, Io.ok_bind, hy, Io.ok_bind, hz, Io.ok_bind]
      exact .request _ rfl (.inr hbody.symm) (hother (by decide))
  case h_7 =>
    exact decoded_field .getDeviceProperties (fun _ => rfl) (hother (by decide)) i32At_whole
  case h_8 => exact .request _ rfl (.inr rfl) (hother (by decide))
  case h_9 =>
    split
    case isTrue => exact .rejected _ (hother (by decide))
    case isFalse hlong =>
      obtain ⟨module, hmodule, hbody⟩ := @u64At_ok body 0 (by omega)
      rw [hmodule, Io.ok_bind]
      split
      case h_1 name hname =>
        refine .request _ rfl (.inr ?_) (hother (by decide))
        rw [Request.encodeBody, utf8Bytes_of_fromUtf8? hname]
        exact hbody.symm
      case h_2 => exact .rejected _ (hother (by decide))
  case h_10 => exact decoded_launchKernel
  case h_11 => exact .rejected _ (hother (by assumption))

end Variants

/-! ## Streams that grow -/

theorem readExact_grown {n : Nat} {s : List UInt8} (more : List UInt8)
    (h : readExact n s ≠ .error (.io eofError)) :
    readExact n (s ++ more) = (readExact n s).map fun p => (p.1, p.2 ++ more) := by
  rcases readExact_cases n s with ⟨bs, rest, hok⟩ | heof
  · obtain ⟨hlen, rfl⟩ := readExact_eq_ok.mp hok
    rw [hok, List.append_assoc, readExact_append hlen]
    rfl
  · exact absurd heof h

/-- What is read off a stream that does not end too early does not depend on what follows. -/
theorem readFramedBody_grown {s : List UInt8} (more : List UInt8)
    (h : readFramedBody s ≠ .error (.io eofError)) :
    readFramedBody (s ++ more) = (readFramedBody s).map fun p => (p.1, p.2 ++ more) := by
  rcases readExact_cases 4 s with ⟨lenBuf, tail, hlenBuf⟩ | heof
  · obtain ⟨hfour, rfl⟩ := readExact_eq_ok.mp hlenBuf
    obtain ⟨n, hn, rfl⟩ : ∃ n, n < 2 ^ 32 ∧ u32ToLe (UInt32.ofNat n) = lenBuf := by
      refine ⟨(u32FromLe lenBuf).toNat, (u32FromLe lenBuf).toNat_lt, ?_⟩
      rw [UInt32.ofNat_toNat, u32ToLe_u32FromLe hfour]
    rw [List.append_assoc, readFramedBody_header, readFramedBody_header] at *
    split at h
    case isTrue hlong => rw [if_pos hlong, if_pos hlong]; rfl
    case isFalse hle => rw [if_neg hle, if_neg hle, readExact_grown more h]
  · exact absurd (by rw [readFramedBody, heof, Io.error_bind]) h

theorem Request.readFrom_grown {s : List UInt8} (more : List UInt8)
    (h : Request.readFrom s ≠ .error (.io eofError)) :
    Request.readFrom (s ++ more) = (Request.readFrom s).map fun p => (p.1, p.2 ++ more) := by
  cases s with
  | nil => exact absurd rfl h
  | cons opcode tail =>
    rw [List.cons_append, Request.readFrom, Request.readFrom] at *
    simp only [readExact_one, Io.ok_bind] at h ⊢
    have hbody : readFramedBody tail ≠ .error (.io eofError) := by
      intro heof
      rw [heof] at h
      exact h rfl
    rw [readFramedBody_grown more hbody]
    cases readFramedBody tail with
    | error f => rfl
    | ok p =>
      show (decodeBody opcode p.1 >>= fun r => pure (r, p.2 ++ more)) = _
      cases hdecode : decodeBody opcode p.1 <;> simp [hdecode, Except.map]

/-! ## Frames -/

/-- What `read_framed_body` makes of a stream: a body and the bytes left over, or an
`io::Error`. -/
theorem readFramedBody_cases (s : List UInt8) :
    (∃ body rest, s = u32ToLe (UInt32.ofNat body.length) ++ (body ++ rest) ∧
      body.length ≤ maxBodyLen ∧ readFramedBody s = .ok (body, rest)) ∨
    ∃ e, readFramedBody s = .error (.io e) := by
  rcases readExact_cases 4 s with ⟨lenBuf, tail, hlenBuf⟩ | heof
  · obtain ⟨hfour, rfl⟩ := readExact_eq_ok.mp hlenBuf
    -- four bytes are the length field of some `n` below `2 ^ 32`
    obtain ⟨n, hn, rfl⟩ : ∃ n, n < 2 ^ 32 ∧ u32ToLe (UInt32.ofNat n) = lenBuf := by
      refine ⟨(u32FromLe lenBuf).toNat, (u32FromLe lenBuf).toNat_lt, ?_⟩
      rw [UInt32.ofNat_toNat, u32ToLe_u32FromLe hfour]
    rw [readFramedBody_header, Nat.mod_eq_of_lt hn]
    split
    case isTrue => exact Or.inr ⟨_, rfl⟩
    case isFalse hle =>
      rcases readExact_cases n tail with ⟨body, rest, hbody⟩ | heof
      · obtain ⟨rfl, rfl⟩ := readExact_eq_ok.mp hbody
        exact Or.inl ⟨body, rest, rfl, Nat.le_of_not_lt hle, hbody⟩
      · exact Or.inr ⟨_, heof⟩
  · exact Or.inr ⟨_, by rw [readFramedBody, heof, Io.error_bind]⟩

/-- Behind a whole frame, the reader is at what its body decodes to. -/
theorem Request.readFrom_frame (opcode : UInt8) {body : List UInt8} (rest : List UInt8)
    (h : body.length ≤ maxBodyLen) :
    Request.readFrom (frame opcode body ++ rest)
      = decodeBody opcode body >>= fun r => .ok (r, rest) := by
  have hframe : frame opcode body ++ rest
      = opcode :: (u32ToLe (UInt32.ofNat body.length) ++ (body ++ rest)) := by
    simp [frame]
  rw [hframe, Request.readFrom]
  simp only [readExact_one, Io.ok_bind, readFramedBody_append _ _ h, List.headD_cons, Io.pure_eq]

/-- A frame above the cap is `InvalidData`. -/
theorem Request.readFrom_frame_long (opcode : UInt8) {body : List UInt8} (rest : List UInt8)
    (h : maxBodyLen < body.length) (hlt : body.length < 2 ^ 32) :
    ∃ message, Request.readFrom (frame opcode body ++ rest) = invalidData message := by
  have hframe : frame opcode body ++ rest
      = opcode :: (u32ToLe (UInt32.ofNat body.length) ++ (body ++ rest)) := by
    simp [frame]
  rw [hframe, Request.readFrom]
  simp only [readExact_one, Io.ok_bind]
  rw [readFramedBody_header, Nat.mod_eq_of_lt hlt, if_pos h]
  exact ⟨_, rfl⟩

/-- The ways `Request::read_from` ends on a stream. -/
inductive ReadFrom (s : List UInt8) : Io (Request × List UInt8) → Prop
  | request (r : Request) (body rest : List UInt8) (hs : s = frame r.opcode body ++ rest)
      (hle : body.length ≤ maxBodyLen) (hbody : IgnoredBody r.opcode body ∨ r.encodeBody = body) :
      ReadFrom s (.ok (r, rest))
  | failed (e : IoError) : ReadFrom s (.error (.io e))
  | overflowed (message : String) (body rest : List UInt8) (hs : s = frame 5 body ++ rest)
      (hle : body.length ≤ maxBodyLen) (hcopy : OverflowingCopy 5 body) :
      ReadFrom s (.error (.panic message))

theorem Request.readFrom_cases (s : List UInt8) : ReadFrom s (Request.readFrom s) := by
  cases s with
  | nil => exact .failed _
  | cons opcode tail =>
    rcases readFramedBody_cases tail with ⟨body, rest, rfl, hle, -⟩ | ⟨e, he⟩
    · have hs : opcode :: (u32ToLe (UInt32.ofNat body.length) ++ (body ++ rest))
          = frame opcode body ++ rest := by simp [frame]
      rw [hs, Request.readFrom_frame opcode rest hle]
      have hdecoded := decodeBody_decoded opcode body
      generalize decodeBody opcode body = result at hdecoded ⊢
      cases hdecoded with
      | request r hopcode hbody =>
        subst hopcode
        exact .request r body rest rfl hle hbody
      | rejected => exact .failed _
      | overflowed message hcopy =>
        obtain rfl := hcopy.1
        exact .overflowed message body rest rfl hle hcopy
    · rw [Request.readFrom]
      simp only [readExact_one, Io.ok_bind, he, Io.error_bind]
      exact .failed e

theorem frame_inj {opcode opcode' : UInt8} {body body' : List UInt8}
    (h : frame opcode body = frame opcode' body') : opcode = opcode' ∧ body = body' := by
  obtain ⟨hopcode, htail⟩ := List.cons.inj h
  exact ⟨hopcode, (List.append_inj htail (by simp)).2⟩

theorem Request.eq_deviceCount {r : Request} (h : r.opcode = 1) : r = .deviceCount := by
  cases r with
  | deviceCount => rfl
  | _ => simp [Request.opcode] at h

/-- No encoder writes a copy whose declared length overflows, as long as the body has the
length its header spells. -/
theorem Request.not_overflowingCopy {r : Request} (h : r.encodeBody.length < 2 ^ 32) :
    ¬ OverflowingCopy r.opcode r.encodeBody := by
  rintro ⟨hopcode, -, hoverflow⟩
  cases r with
  | memcpyH2D handle offset data =>
    rw [length_encodeBody_memcpyH2D] at h
    have hdrop : (Request.memcpyH2D handle offset data).encodeBody.drop 16
        = u64ToLe (UInt64.ofNat data.length) ++ data := by
      rw [Request.encodeBody, ← List.append_assoc, List.drop_left' (by simp)]
    rw [declaredLen, hdrop, List.take_left' (length_u64ToLe _), u64FromLe_u64ToLe,
      UInt64.toNat_ofNat', Nat.mod_eq_of_lt (by omega)] at hoverflow
    unfold usizeMax at hoverflow
    omega
  | _ => simp [Request.opcode] at hopcode

/-- **Unique encodings.** A request read off a stream is written as the bytes it was read from
exactly if these are not a `DeviceCount` frame with a body; and a frame is `InvalidData` or
what the encoder writes exactly if it is neither such a frame nor a copy whose declared length
overflows `24 + data_len`. -/
theorem request_encoding_unique (rest : List UInt8) :
    (∀ p r, Request.readFrom (p ++ rest) = .ok (r, rest) →
      (r.writeTo = p ↔ ¬ ∃ body, p = frame 1 body ∧ body ≠ [])) ∧
    (∀ opcode body, body.length < 2 ^ 32 →
      (((∃ message, Request.readFrom (frame opcode body ++ rest) = invalidData message) ∨
          ∃ r : Request, r.writeTo = frame opcode body) ↔
        ¬ (body.length ≤ maxBodyLen ∧
          (IgnoredBody opcode body ∨ OverflowingCopy opcode body)))) := by
  constructor
  · intro p r hread
    have hcases := Request.readFrom_cases (p ++ rest)
    rw [hread] at hcases
    cases hcases with
    | request _ body _ hs hle hbody =>
      obtain rfl := List.append_cancel_right hs
      constructor
      · rintro hwrite ⟨body', hp, hne⟩
        obtain ⟨hopcode, rfl⟩ := frame_inj hp
        obtain rfl := Request.eq_deviceCount hopcode
        exact hne (frame_inj hwrite).2.symm
      · intro hno
        rcases hbody with ⟨hopcode, hne⟩ | hbody
        · exact absurd ⟨body, by rw [hopcode], hne⟩ hno
        · rw [Request.writeTo, hbody]
  · intro opcode body hlt
    constructor
    · rintro (⟨message, hread⟩ | ⟨r, hwrite⟩) ⟨hle, hbad⟩
      · -- the frame is read whole, so its body was refused
        rw [Request.readFrom_frame opcode rest hle] at hread
        rcases hbad with ⟨rfl, -⟩ | hcopy
        · cases hread
        · have hdecoded := decodeBody_decoded opcode body
          generalize decodeBody opcode body = result at hdecoded hread
          cases hdecoded with
          | request => cases hread
          | rejected _ hno => exact hno hcopy
          | overflowed => cases hread
      · obtain ⟨rfl, rfl⟩ := frame_inj hwrite
        rcases hbad with ⟨hopcode, hne⟩ | hcopy
        · obtain rfl := Request.eq_deviceCount hopcode
          exact hne rfl
        · exact Request.not_overflowingCopy hlt hcopy
    · intro hgood
      rcases Nat.lt_or_ge maxBodyLen body.length with hlong | hle
      · exact Or.inl (Request.readFrom_frame_long opcode rest hlong hlt)
      · rw [Request.readFrom_frame opcode rest hle]
        have hdecoded := decodeBody_decoded opcode body
        generalize decodeBody opcode body = result at hdecoded ⊢
        cases hdecoded with
        | request r hopcode hbody =>
          rcases hbody with hignored | hbody
          · exact absurd ⟨hle, Or.inl hignored⟩ hgood
          · exact Or.inr ⟨r, by rw [Request.writeTo, hopcode, hbody]⟩
        | rejected message => exact Or.inl ⟨message, rfl⟩
        | overflowed _ hcopy => exact absurd ⟨hle, Or.inr hcopy⟩ hgood

/-- A `Free` of handle 7 and a `Malloc` frame of one byte, each in front of another frame. -/
theorem request_encoding_unique_free :
    (Request.free 7).writeTo = [4, 8, 0, 0, 0, 7, 0, 0, 0, 0, 0, 0, 0] ∧
      ((∃ message, Request.readFrom (frame 3 [9] ++ [1, 0, 0, 0, 0]) = invalidData message) ∨
        ∃ r : Request, r.writeTo = frame 3 [9]) := by
  obtain ⟨hread, hframe⟩ := request_encoding_unique [1, 0, 0, 0, 0]
  refine ⟨(hread [4, 8, 0, 0, 0, 7, 0, 0, 0, 0, 0, 0, 0] _ rfl).mpr ?_,
    (hframe 3 [9] (by decide)).mpr ?_⟩
  · rintro ⟨body, hp, -⟩
    cases hp
  · rintro ⟨-, h | h⟩
    · exact absurd h.1 (by decide)
    · exact absurd h.1 (by decide)

/-- A `DeviceCount` frame with one byte of body is read as `DeviceCount`, which is written
without. -/
theorem request_encoding_not_unique :
    Request.readFrom ([1, 1, 0, 0, 0, 7] ++ []) = .ok (.deviceCount, []) ∧
      Request.deviceCount.writeTo ≠ [1, 1, 0, 0, 0, 7] := by
  constructor
  · rfl
  · decide

end HipBridge.Protocol
