import HipBridge.Protocol.RoundTrip

/-!
# Where a reader finds the end of a frame

The length field of a frame is the body length modulo `2 ^ 32`, and a reader goes by the field.

* **`HeaderSafe`** — a body length that the field spells, or whose field the reader refuses.
* **`SendsWhole`** — the daemon takes no part of the frame of a request for a request.
* **`Request.readFrom_prefix`**, **`Response.readFrom_prefix`** — reading such a frame byte by
  byte, a reader has a value exactly when it has the whole frame.
-/

namespace HipBridge.Protocol

open Lib

/-- The 32-bit length field spells `n`, or spells something the reader refuses. -/
def HeaderSafe (n : Nat) : Prop := n < 2 ^ 32 ∨ maxBodyLen < n % 2 ^ 32

/-- The length field of the request is safe, or the bytes it cuts off the body do not decode. -/
def SendsWhole (r : Request) : Prop :=
  HeaderSafe r.encodeBody.length ∨
    ∃ f, decodeBody r.opcode (r.encodeBody.take (r.encodeBody.length % 2 ^ 32)) = .error f

theorem HeaderSafe.of_le {n : Nat} (h : n ≤ maxBodyLen) : HeaderSafe n := by
  have hmax : maxBodyLen = 268435456 := rfl
  exact Or.inl (by omega)

/-- A safe length is within the cap, or refused. -/
theorem HeaderSafe.le_or_refused {n : Nat} (h : HeaderSafe n) :
    n ≤ maxBodyLen ∨ maxBodyLen < n % 2 ^ 32 := by
  rcases h with hlt | hrefused
  · rw [Nat.mod_eq_of_lt hlt]
    omega
  · exact Or.inr hrefused

theorem readFramedBody_refused {body p : List UInt8} (h : maxBodyLen < body.length % 2 ^ 32)
    (hp : p <+: u32ToLe (UInt32.ofNat body.length) ++ body) :
    ∃ e, readFramedBody p = .error (.io e) := by
  rcases framedBody_prefix hp with heof | ⟨tail, rfl, -⟩
  · exact ⟨_, heof⟩
  · rw [readFramedBody_header, if_pos h]
    exact ⟨_, rfl⟩

/-! ## Responses -/

/-- Reading the frame of a response byte by byte: the response when it is whole, an
`io::Error` before. -/
theorem Response.readFrom_prefix {s : Response} {p : List UInt8}
    (h : HeaderSafe s.encodeBody.length) (hp : p <+: s.writeTo) :
    (p = s.writeTo ∧ Response.readFrom p = .ok (s, [])) ∨
      ∃ e, Response.readFrom p = .error (.io e) := by
  rcases h.le_or_refused with hle | hrefused
  · by_cases hne : p = s.writeTo
    · subst hne
      have hread := s.readFrom_writeTo [] hle
      rw [List.append_nil] at hread
      exact Or.inl ⟨rfl, hread⟩
    · exact Or.inr ⟨_, Response.readFrom_strictPrefix hle hp hne⟩
  · -- the field is above the cap, so no part of the frame is read as a response
    right
    cases p with
    | nil => exact ⟨_, rfl⟩
    | cons b q =>
      obtain ⟨rfl, hq⟩ := List.cons_prefix_cons.mp hp
      obtain ⟨e, he⟩ := readFramedBody_refused hrefused hq
      refine ⟨e, ?_⟩
      rw [Response.readFrom]
      simp only [readExact_one, Io.ok_bind, he, Io.error_bind]

/-! ## Requests -/

/-- A body cut off by its length field is not taken for a request. -/
theorem Request.readFrom_cut {r : Request} {p : List UInt8} {f : Fault}
    (h : decodeBody r.opcode (r.encodeBody.take (r.encodeBody.length % 2 ^ 32)) = .error f)
    (hp : p <+: r.writeTo) : ∃ f, Request.readFrom p = .error f := by
  cases p with
  | nil => exact ⟨_, rfl⟩
  | cons b q =>
    obtain ⟨rfl, hq⟩ := List.cons_prefix_cons.mp hp
    rw [Request.readFrom]
    simp only [readExact_one, Io.ok_bind]
    rcases framedBody_prefix hq with heof | ⟨tail, rfl, htail⟩
    · rw [heof]
      exact ⟨_, rfl⟩
    · rw [readFramedBody_header]
      split
      case isTrue => exact ⟨_, rfl⟩
      case isFalse =>
        rcases Nat.lt_or_ge tail.length (r.encodeBody.length % 2 ^ 32) with hshort | hlong
        · rw [readExact_short hshort]
          exact ⟨_, rfl⟩
        · -- the reader has what the field asks for: the first bytes of the body
          have htake : tail.take (r.encodeBody.length % 2 ^ 32)
              = r.encodeBody.take (r.encodeBody.length % 2 ^ 32) := by
            obtain ⟨suf, hsuf⟩ := htail
            rw [← hsuf, List.take_append_of_le_length (by rw [hsuf]; exact hlong)]
          rw [readExact, if_pos hlong]
          simp only [Io.ok_bind, List.headD_cons, htake, h, Io.error_bind]
          exact ⟨_, rfl⟩

/-- Reading the frame of a request byte by byte: the request when it is whole, a fault before. -/
theorem Request.readFrom_prefix {r : Request} {p : List UInt8} (h : SendsWhole r)
    (hp : p <+: r.writeTo) :
    (p = r.writeTo ∧ r.encodeBody.length ≤ maxBodyLen ∧ Request.readFrom p = .ok (r, [])) ∨
      ∃ f, Request.readFrom p = .error f := by
  rcases h with hsafe | ⟨f, hcut⟩
  · rcases hsafe.le_or_refused with hle | hrefused
    · by_cases hne : p = r.writeTo
      · subst hne
        have hread := r.readFrom_writeTo [] hle
        rw [List.append_nil] at hread
        exact Or.inl ⟨rfl, hle, hread⟩
      · exact Or.inr ⟨_, Request.readFrom_strictPrefix hle hp hne⟩
    · right
      cases p with
      | nil => exact ⟨_, rfl⟩
      | cons b q =>
        obtain ⟨rfl, hq⟩ := List.cons_prefix_cons.mp hp
        obtain ⟨e, he⟩ := readFramedBody_refused hrefused hq
        refine ⟨.io e, ?_⟩
        rw [Request.readFrom]
        simp only [readExact_one, Io.ok_bind, he, Io.error_bind]
  · exact Or.inr (Request.readFrom_cut hcut hp)

/-- `SendsWhole` is exact: without it some strict part of the frame is taken for a request. -/
theorem exists_readFrom_strictPrefix {r : Request} (h : ¬ SendsWhole r) :
    ∃ p r', p <+: r.writeTo ∧ p ≠ r.writeTo ∧ Request.readFrom p = .ok (r', []) := by
  unfold SendsWhole HeaderSafe at h
  push Not at h
  obtain ⟨⟨hbig, hle⟩, hdecodes⟩ := h
  -- the part in question is the tag, the field and the bytes the field leaves of the body
  set body := r.encodeBody with hbody
  have hlt : body.length % 2 ^ 32 < body.length := by omega
  obtain ⟨r', hr'⟩ : ∃ r', decodeBody r.opcode (body.take (body.length % 2 ^ 32)) = .ok r' := by
    cases hdec : decodeBody r.opcode (body.take (body.length % 2 ^ 32)) with
    | ok r' => exact ⟨r', rfl⟩
    | error f => exact absurd hdec (hdecodes f)
  have hlen : (body.take (body.length % 2 ^ 32)).length = body.length % 2 ^ 32 := by
    rw [List.length_take]
    omega
  refine ⟨r.opcode :: (u32ToLe (UInt32.ofNat body.length) ++ body.take (body.length % 2 ^ 32)),
    r', ?_, ?_, ?_⟩
  · rw [Request.writeTo, frame, List.cons_prefix_cons]
    exact ⟨rfl, (List.prefix_append_right_inj _).mpr (List.take_prefix _ _)⟩
  · intro heq
    have hlengths := congrArg List.length heq
    rw [Request.writeTo, frame, ← hbody, List.length_cons, List.length_cons, List.length_append,
      List.length_append, hlen] at hlengths
    omega
  · have hread := @readExact_append (body.take (body.length % 2 ^ 32)) [] _ hlen
    rw [List.append_nil] at hread
    rw [Request.readFrom]
    simp only [readExact_one, Io.ok_bind]
    rw [readFramedBody_header, if_neg (Nat.not_lt.mpr hle), hread]
    simp only [Io.ok_bind, List.headD_cons, hr', Io.pure_eq]

/-- A length field of a multiple of `2 ^ 32` is that of an empty body: the bytes of the body come
after what reads as a whole response. -/
theorem writeTo_ok_wrapped {bytes : List UInt8} (h : bytes.length % 2 ^ 32 = 0) :
    (Response.ok bytes).writeTo = Response.okEmpty.writeTo ++ bytes := by
  have hfield : UInt32.ofNat bytes.length = 0 := by
    rw [← UInt32.toNat_inj, UInt32.toNat_ofNat', h]
    rfl
  rw [Response.writeTo, frame, Response.encodeBody, hfield]
  rfl

/-- A copy to the device states the length of its data a second time, in the body, and so is
never cut short. -/
theorem sendsWhole_memcpyH2D (handle offset : UInt64) {data : List UInt8}
    (h : data.length < 2 ^ 63) : SendsWhole (.memcpyH2D handle offset data) := by
  have hlen := length_encodeBody_memcpyH2D handle offset data
  rcases Nat.lt_or_ge (24 + data.length) (2 ^ 32) with hlt | hbig
  · exact Or.inl (Or.inl (by rw [hlen]; exact hlt))
  · right
    rw [hlen]
    obtain ⟨m, hm⟩ : ∃ m, m = (24 + data.length) % 2 ^ 32 := ⟨_, rfl⟩
    rw [← hm]
    have hmlt : m < 24 + data.length := by omega
    have htaken : ((Request.memcpyH2D handle offset data).encodeBody.take m).length = m := by
      rw [List.length_take, hlen]
      omega
    rcases Nat.lt_or_ge m 24 with hshort | hlong
    · -- not even the three fields are there
      simp only [Request.opcode, decodeBody, htaken, if_pos hshort]
      exact ⟨_, rfl⟩
    · -- the three fields are whole, and the length among them is not the length of the rest
      obtain ⟨k, rfl⟩ : ∃ k, m = 24 + k := ⟨m - 24, by omega⟩
      have htake : (Request.memcpyH2D handle offset data).encodeBody.take (24 + k)
          = u64ToLe handle ++ (u64ToLe offset ++
              (u64ToLe (UInt64.ofNat data.length) ++ data.take k)) := by
        have hhead : (u64ToLe handle ++ (u64ToLe offset ++
            u64ToLe (UInt64.ofNat data.length))).length = 24 := by simp
        have htakeHead := @List.take_length_add_append _ (u64ToLe handle ++ (u64ToLe offset ++
            u64ToLe (UInt64.ofNat data.length))) data k
        rw [hhead] at htakeHead
        simpa only [Request.encodeBody, List.append_assoc] using htakeHead
      have hnum : (UInt64.ofNat data.length).toNat = data.length := by
        rw [UInt64.toNat_ofNat', Nat.mod_eq_of_lt (by omega)]
      have hadd : usizeAdd 24 data.length = .ok (24 + data.length) :=
        usizeAdd_ok (by unfold usizeMax; omega)
      simp only [Request.opcode, decodeBody, htaken, if_neg (Nat.not_lt.mpr hlong)]
      rw [htake]
      simp only [u64At_zero, u64At_append_of_le, length_u64ToLe, Nat.le_refl, Nat.reduceLeDiff,
        Nat.reduceSub, Nat.sub_self, Io.ok_bind, hnum, hadd]
      rw [if_pos (by omega)]
      exact ⟨_, rfl⟩

end HipBridge.Protocol
