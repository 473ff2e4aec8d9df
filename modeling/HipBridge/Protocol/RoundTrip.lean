import HipBridge.Protocol.Wire

/-!
# What is written is read back

* **`decodeBody_encodeBody`** — every request is decoded from the body it is encoded to.
* **`readFramedBody_header`** — what a length field makes of the bytes after it.
* **`readFramedBody_append`**, **`readFramedBody_prefix`** — a framed body is read whole from
  the front of a stream, and a stream that ends before it is an `io::Error`.
* **`wire_roundTrip`** — round trip, truncation and concatenation of whole frames.
-/

namespace HipBridge.Protocol

open Lib

/-! ## Bodies -/

@[simp] theorem length_encodeBody_malloc (size : UInt64) :
    (Request.malloc size).encodeBody.length = 8 := length_u64ToLe size

@[simp] theorem length_encodeBody_free (handle : UInt64) :
    (Request.free handle).encodeBody.length = 8 := length_u64ToLe handle

@[simp] theorem length_encodeBody_memcpyD2H (handle offset len : UInt64) :
    (Request.memcpyD2H handle offset len).encodeBody.length = 24 := by
  simp [Request.encodeBody]

@[simp] theorem length_encodeBody_memcpyH2D (handle offset : UInt64) (data : List UInt8) :
    (Request.memcpyH2D handle offset data).encodeBody.length = 24 + data.length := by
  simp only [Request.encodeBody, List.length_append, length_u64ToLe]
  omega

@[simp] theorem length_encodeFixup (fixup : Fixup) : (encodeFixup fixup).length = 20 := by
  simp [encodeFixup]

@[simp] theorem length_flatMap_encodeFixup (fixups : List Fixup) :
    (fixups.flatMap encodeFixup).length = 20 * fixups.length := by
  induction fixups with
  | nil => rfl
  | cons fixup fixups ih =>
    rw [List.flatMap_cons, List.length_append, ih, length_encodeFixup, List.length_cons]
    omega

/-- The fixup loop reads back a table written anywhere in the body. Induction on the table. -/
theorem readFixups_flatMap (pre suf : List UInt8) (fixups : List Fixup) :
    readFixups (pre ++ (fixups.flatMap encodeFixup ++ suf)) fixups.length pre.length
      = .ok fixups := by
  induction fixups generalizing pre with
  | nil => rfl
  | cons fixup fixups ih =>
    obtain ⟨off, handle, intra⟩ := fixup
    -- for the rest of the table, this entry is part of what comes before
    have hnext := ih (pre ++ encodeFixup (off, handle, intra))
    rw [List.length_append, length_encodeFixup, List.append_assoc] at hnext
    rw [List.flatMap_cons, List.append_assoc, List.length_cons, readFixups, hnext]
    simp [encodeFixup]

theorem mod_of_le_maxBodyLen {n : Nat} (h : n ≤ maxBodyLen) : n % 2 ^ 32 = n := by
  have hmax : maxBodyLen = 268435456 := rfl
  exact Nat.mod_eq_of_lt (by omega)

theorem decodeBody_memcpyH2D (handle offset : UInt64) (data : List UInt8)
    (h : data.length ≤ maxBodyLen) :
    decodeBody 5 (Request.memcpyH2D handle offset data).encodeBody
      = .ok (.memcpyH2D handle offset data) := by
  have hmax : maxBodyLen = 268435456 := rfl
  have hlen : (UInt64.ofNat data.length).toNat = data.length := by
    rw [UInt64.toNat_ofNat', Nat.mod_eq_of_lt (by omega)]
  have hadd : usizeAdd 24 data.length = .ok (24 + data.length) :=
    usizeAdd_ok (by unfold usizeMax; omega)
  have hsize : 8 + (8 + (8 + data.length)) = 24 + data.length := by omega
  have hdrop : (u64ToLe handle ++ (u64ToLe offset ++
      (u64ToLe (UInt64.ofNat data.length) ++ data))).drop 24 = data := by
    rw [← List.append_assoc, ← List.append_assoc, List.drop_left' (by simp)]
  simp [Request.encodeBody, decodeBody, hlen, hadd, hsize, hdrop]

/-- The 40 bytes of a launch body in front of its fixup table. -/
def launchHeader (function : UInt64) (grid block : UInt32 × UInt32 × UInt32)
    (sharedMem numFixups : UInt32) : List UInt8 :=
  u64ToLe function ++
    (u32ToLe grid.1 ++ (u32ToLe grid.2.1 ++ (u32ToLe grid.2.2 ++
    (u32ToLe block.1 ++ (u32ToLe block.2.1 ++ (u32ToLe block.2.2 ++
    (u32ToLe sharedMem ++ u32ToLe numFixups)))))))

section Launch

variable (function : UInt64) (grid block : UInt32 × UInt32 × UInt32) (sharedMem n : UInt32)

@[simp] theorem length_launchHeader :
    (launchHeader function grid block sharedMem n).length = 40 := by
  simp [launchHeader]

/-- Every field of the header is read back at its offset. -/
theorem launchHeader_fields (suf : List UInt8) :
    let body := launchHeader function grid block sharedMem n ++ suf
    u64At body 0 = .ok function ∧
    u32At body 8 = .ok grid.1 ∧ u32At body 12 = .ok grid.2.1 ∧ u32At body 16 = .ok grid.2.2 ∧
    u32At body 20 = .ok block.1 ∧ u32At body 24 = .ok block.2.1 ∧
    u32At body 28 = .ok block.2.2 ∧ u32At body 32 = .ok sharedMem ∧ u32At body 36 = .ok n := by
  simp [launchHeader]

theorem encodeBody_launchKernel (fixups : List Fixup) (args : List UInt8) :
    (Request.launchKernel function grid block sharedMem fixups args).encodeBody
      = launchHeader function grid block sharedMem (UInt32.ofNat fixups.length) ++
        (fixups.flatMap encodeFixup ++ args) := by
  simp [Request.encodeBody, launchHeader]

theorem decodeBody_launchKernel (fixups : List Fixup) (args : List UInt8)
    (h : 40 + 20 * fixups.length + args.length ≤ maxBodyLen) :
    decodeBody 10 (Request.launchKernel function grid block sharedMem fixups args).encodeBody
      = .ok (.launchKernel function grid block sharedMem fixups args) := by
  have hmax : maxBodyLen = 268435456 := rfl
  rw [encodeBody_launchKernel]
  set header := launchHeader function grid block sharedMem (UInt32.ofNat fixups.length)
    with hheader
  have hheaderLen : header.length = 40 := length_launchHeader ..
  obtain ⟨hfunction, hgx, hgy, hgz, hbx, hby, hbz, hmem, hcount⟩ :=
    launchHeader_fields function grid block sharedMem (UInt32.ofNat fixups.length)
      (fixups.flatMap encodeFixup ++ args)
  rw [← hheader] at hfunction hgx hgy hgz hbx hby hbz hmem hcount
  have hlen : (header ++ (fixups.flatMap encodeFixup ++ args)).length
      = 40 + fixups.length * 20 + args.length := by
    rw [List.length_append, List.length_append, hheaderLen, length_flatMap_encodeFixup]
    omega
  -- neither checked operation overflows, and the table ends where the arguments start
  have hmul : checkedMul fixups.length 20 = some (fixups.length * 20) :=
    if_pos (by unfold usizeMax; omega)
  have hadd : checkedAdd 40 (fixups.length * 20) = some (40 + fixups.length * 20) :=
    if_pos (by unfold usizeMax; omega)
  have halloc : allocVec roomy 24 fixups.length = .ok () :=
    allocVec_ok (canAlloc_roomy (by unfold isizeMax; omega))
  have htable := readFixups_flatMap header args fixups
  rw [hheaderLen] at htable
  have hargs : (header ++ (fixups.flatMap encodeFixup ++ args)).drop (40 + fixups.length * 20)
      = args := by
    rw [← List.append_assoc, List.drop_left']
    rw [List.length_append, hheaderLen, length_flatMap_encodeFixup]
    omega
  have hnum : (UInt32.ofNat fixups.length).toNat = fixups.length := by
    rw [UInt32.toNat_ofNat', mod_of_le_maxBodyLen (by omega)]
  have hlong : ¬ 40 + fixups.length * 20 + args.length < 40 := by omega
  have hwhole : ¬ 40 + fixups.length * 20 + args.length < 40 + fixups.length * 20 := by omega
  simp only [decodeBody, hlen, hlong, if_false, hfunction, hgx, hgy, hgz, hbx, hby, hbz, hmem,
    hcount, Io.ok_bind, hnum, hmul, hadd, orOverflow, hwhole, halloc, htable, hargs, Io.pure_eq]

end Launch

/-- Every request is decoded from the body it is encoded to. -/
theorem decodeBody_encodeBody (r : Request) (h : r.encodeBody.length ≤ maxBodyLen) :
    decodeBody r.opcode r.encodeBody = .ok r := by
  cases r with
  | deviceCount => rfl
  | setDevice device => simp [Request.opcode, Request.encodeBody, decodeBody, i32At_toLe]
  | malloc size => simp [Request.opcode, Request.encodeBody, decodeBody, u64At_toLe]
  | free handle => simp [Request.opcode, Request.encodeBody, decodeBody, u64At_toLe]
  | memcpyH2D handle offset data =>
    refine decodeBody_memcpyH2D handle offset data ?_
    rw [length_encodeBody_memcpyH2D] at h
    omega
  | memcpyD2H handle offset len =>
    simp [Request.opcode, Request.encodeBody, decodeBody, u64At_toLe]
  | getDeviceProperties device =>
    simp [Request.opcode, Request.encodeBody, decodeBody, i32At_toLe]
  | loadModule data => rfl
  | getFunction module name => simp [Request.opcode, Request.encodeBody, decodeBody]
  | launchKernel function grid block sharedMem fixups args =>
    refine decodeBody_launchKernel function grid block sharedMem fixups args ?_
    rw [encodeBody_launchKernel, List.length_append, List.length_append, length_launchHeader,
      length_flatMap_encodeFixup] at h
    omega

/-! ## Frames -/

/-- What follows a length field is refused, or read as a body of the length it spells. -/
theorem readFramedBody_header (n : Nat) (tail : List UInt8) :
    readFramedBody (u32ToLe (UInt32.ofNat n) ++ tail) =
      if maxBodyLen < n % 2 ^ 32 then
        invalidData ("frame body length " ++ toString (n % 2 ^ 32) ++ " exceeds sanity cap " ++
          toString maxBodyLen)
      else readExact (n % 2 ^ 32) tail := by
  rw [readFramedBody, readExact_append (length_u32ToLe _)]
  simp only [Io.ok_bind, u32FromLe_u32ToLe, UInt32.toNat_ofNat']
  split
  case isTrue => rfl
  case isFalse hle =>
    have hmax : maxBodyLen = 268435456 := rfl
    have halloc : allocVec roomy 1 (n % 2 ^ 32) = .ok () :=
      allocVec_ok (canAlloc_roomy (by unfold isizeMax; omega))
    rw [halloc, Io.ok_bind]

/-- A framed body is read whole, and what follows it is left. -/
theorem readFramedBody_append (body rest : List UInt8) (h : body.length ≤ maxBodyLen) :
    readFramedBody (u32ToLe (UInt32.ofNat body.length) ++ (body ++ rest)) = .ok (body, rest) := by
  rw [readFramedBody_header, mod_of_le_maxBodyLen h, if_neg (Nat.not_lt.mpr h),
    readExact_append rfl]

/-- A stream that ends inside a length field is an `io::Error`; one that does not has a tail
that the body starts with. -/
theorem framedBody_prefix {body p : List UInt8}
    (hp : p <+: u32ToLe (UInt32.ofNat body.length) ++ body) :
    readFramedBody p = .error (.io eofError) ∨
      ∃ tail, p = u32ToLe (UInt32.ofNat body.length) ++ tail ∧ tail <+: body := by
  rcases Nat.lt_or_ge p.length 4 with hshort | hlong
  · left
    rw [readFramedBody, readExact_short hshort]
    rfl
  · right
    obtain ⟨tail, htail⟩ := List.prefix_of_prefix_length_le
      (List.prefix_append (u32ToLe (UInt32.ofNat body.length)) body) hp (by simpa using hlong)
    subst htail
    exact ⟨tail, rfl, (List.prefix_append_right_inj _).mp hp⟩

/-- A stream that ends inside a framed body is an `io::Error`. -/
theorem readFramedBody_prefix {body p : List UInt8} (h : body.length ≤ maxBodyLen)
    (hp : p <+: u32ToLe (UInt32.ofNat body.length) ++ body)
    (hne : p ≠ u32ToLe (UInt32.ofNat body.length) ++ body) :
    readFramedBody p = .error (.io eofError) := by
  rcases framedBody_prefix hp with herror | ⟨tail, rfl, htail⟩
  · exact herror
  · -- the length field is whole, and asks for more than is left
    have hshort : tail.length < body.length :=
      lt_of_le_of_ne htail.length_le fun heq => hne (by rw [htail.eq_of_length heq])
    rw [readFramedBody_header, mod_of_le_maxBodyLen h, if_neg (Nat.not_lt.mpr h),
      readExact_short hshort]

/-- A strict prefix of a frame is empty, or the tag and a strict prefix of the framed body. -/
theorem frame_strictPrefix {tag : UInt8} {body p : List UInt8} (hp : p <+: frame tag body)
    (hne : p ≠ frame tag body) :
    p = [] ∨ ∃ q, p = tag :: q ∧ q <+: u32ToLe (UInt32.ofNat body.length) ++ body ∧
      q ≠ u32ToLe (UInt32.ofNat body.length) ++ body := by
  cases p with
  | nil => exact Or.inl rfl
  | cons b q =>
    obtain ⟨rfl, hq⟩ := List.cons_prefix_cons.mp hp
    exact Or.inr ⟨q, rfl, hq, fun heq => hne (by rw [heq, frame])⟩

theorem Request.readFrom_writeTo (r : Request) (rest : List UInt8)
    (h : r.encodeBody.length ≤ maxBodyLen) :
    Request.readFrom (r.writeTo ++ rest) = .ok (r, rest) := by
  have hframe : r.writeTo ++ rest
      = r.opcode :: (u32ToLe (UInt32.ofNat r.encodeBody.length) ++ (r.encodeBody ++ rest)) := by
    simp [Request.writeTo, frame]
  rw [hframe, Request.readFrom]
  simp only [readExact_one, Io.ok_bind, readFramedBody_append _ _ h, List.headD_cons,
    decodeBody_encodeBody r h, Io.pure_eq]

theorem Response.readFrom_writeTo (s : Response) (rest : List UInt8)
    (h : s.encodeBody.length ≤ maxBodyLen) :
    Response.readFrom (s.writeTo ++ rest) = .ok (s, rest) := by
  have hframe : s.writeTo ++ rest
      = s.status :: (u32ToLe (UInt32.ofNat s.encodeBody.length) ++ (s.encodeBody ++ rest)) := by
    simp [Response.writeTo, frame]
  -- a message that came from a `String` survives the lossy decoding
  have hbody : decodeResponse s.status s.encodeBody = .ok s := by
    cases s with
    | ok body => rfl
    | err msg => simp [Response.status, Response.encodeBody, decodeResponse]
  rw [hframe, Response.readFrom]
  simp only [readExact_one, Io.ok_bind, readFramedBody_append _ _ h, List.headD_cons, hbody,
    Io.pure_eq]

theorem Request.readFrom_strictPrefix {r : Request} {p : List UInt8}
    (h : r.encodeBody.length ≤ maxBodyLen) (hp : p <+: r.writeTo) (hne : p ≠ r.writeTo) :
    Request.readFrom p = .error (.io eofError) := by
  rcases frame_strictPrefix hp hne with rfl | ⟨q, rfl, hq, hqne⟩
  · rfl
  · rw [Request.readFrom]
    simp only [readExact_one, Io.ok_bind, readFramedBody_prefix h hq hqne, Io.error_bind]

theorem Response.readFrom_strictPrefix {s : Response} {p : List UInt8}
    (h : s.encodeBody.length ≤ maxBodyLen) (hp : p <+: s.writeTo) (hne : p ≠ s.writeTo) :
    Response.readFrom p = .error (.io eofError) := by
  rcases frame_strictPrefix hp hne with rfl | ⟨q, rfl, hq, hqne⟩
  · rfl
  · rw [Response.readFrom]
    simp only [readExact_one, Io.ok_bind, readFramedBody_prefix h hq hqne, Io.error_bind]

/-- A concatenation of frames is read back as the list of its requests. -/
theorem readRequests_flatMap {rs : List Request} {fuel : Nat}
    (h : ∀ r ∈ rs, r.encodeBody.length ≤ maxBodyLen) (hfuel : rs.length ≤ fuel) :
    readRequests fuel (rs.flatMap Request.writeTo) = .ok rs := by
  induction rs generalizing fuel with
  | nil => simp [readRequests]
  | cons r rs ih =>
    obtain ⟨fuel, rfl⟩ : ∃ k, fuel = k + 1 := ⟨fuel - 1, by simp at hfuel; omega⟩
    have hread := r.readFrom_writeTo (rs.flatMap Request.writeTo) (h r List.mem_cons_self)
    have hrest := @ih fuel (fun r' hr' => h r' (List.mem_cons_of_mem r hr'))
      (by simpa using hfuel)
    rw [List.flatMap_cons, Request.writeTo, frame, List.cons_append] at *
    simp only [readRequests, hread, hrest, Io.ok_bind, Io.pure_eq]

theorem length_le_flatMap_writeTo (rs : List Request) :
    rs.length ≤ (rs.flatMap Request.writeTo).length := by
  induction rs with
  | nil => exact Nat.le_refl 0
  | cons r rs ih =>
    rw [List.flatMap_cons, List.length_append, List.length_cons, Request.writeTo, frame,
      List.length_cons]
    omega

/-- **The wire round trip.** A frame whose body is at most `MAX_BODY_LEN` bytes is read back
from the front of any stream and nothing after it is touched; a stream that ends inside it is
an `io::Error`; and any concatenation of request frames is read back as its list of requests. -/
theorem wire_roundTrip :
    (∀ r : Request, r.encodeBody.length ≤ maxBodyLen →
      (∀ rest, Request.readFrom (r.writeTo ++ rest) = .ok (r, rest)) ∧
      (∀ p, p <+: r.writeTo → p ≠ r.writeTo → ∃ e, Request.readFrom p = .error (.io e))) ∧
    (∀ s : Response, s.encodeBody.length ≤ maxBodyLen →
      (∀ rest, Response.readFrom (s.writeTo ++ rest) = .ok (s, rest)) ∧
      (∀ p, p <+: s.writeTo → p ≠ s.writeTo → ∃ e, Response.readFrom p = .error (.io e))) ∧
    (∀ rs : List Request, (∀ r ∈ rs, r.encodeBody.length ≤ maxBodyLen) →
      readRequests (rs.flatMap Request.writeTo).length (rs.flatMap Request.writeTo) = .ok rs) := by
  refine ⟨fun r h => ⟨fun rest => r.readFrom_writeTo rest h, fun p hp hne => ?_⟩,
    fun s h => ⟨fun rest => s.readFrom_writeTo rest h, fun p hp hne => ?_⟩, fun rs h => ?_⟩
  · exact ⟨_, Request.readFrom_strictPrefix h hp hne⟩
  · exact ⟨_, Response.readFrom_strictPrefix h hp hne⟩
  · exact readRequests_flatMap h (length_le_flatMap_writeTo rs)

/-- A launch with one fixup, followed by a byte of the next frame, and a truncated response. -/
theorem wire_roundTrip_launch :
    Request.readFrom ((Request.launchKernel 7 (1, 1, 1) (64, 1, 1) 0 [(8, 2, 16)] [1, 2]).writeTo
        ++ [9]) = .ok (.launchKernel 7 (1, 1, 1) (64, 1, 1) 0 [(8, 2, 16)] [1, 2], [9]) ∧
      ∃ e, Response.readFrom [0, 4, 0] = .error (.io e) := by
  obtain ⟨hrequest, hresponse, -⟩ := wire_roundTrip
  refine ⟨(hrequest _ (by decide)).1 [9], (hresponse (.ok [1, 2, 3, 4]) (by decide)).2 _ ?_ ?_⟩
  · exact ⟨[0, 0, 1, 2, 3, 4], by decide⟩
  · decide

end HipBridge.Protocol
