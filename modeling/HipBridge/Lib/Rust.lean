import HipBridge.Lib.LittleEndian

/-!
# The parts of Rust's standard library the bridge's Rust crates rest on

* **`Fault`** — the ways a Rust computation fails to return a value: an `io::Error` handed to
  the caller, a panic, or the end of the process.
* **`usizeAdd`**, **`allocVec`** — arithmetic that panics when checked, and allocation, which
  rests on what the allocator has (`CanAlloc`).
* **`readExact`** — `Read::read_exact` on the bytes left before the end of the stream.
* **`u32At`**, **`u64At`** — `from_le_bytes(body[a..a + k].try_into().unwrap())`.
* **`utf8Bytes`**, **`fromUtf8?`**, **`fromUtf8Lossy`** — a `String` and its bytes.
-/

namespace Lib

inductive IoErrorKind
  | unexpectedEof
  | invalidData
  | other
deriving DecidableEq, Repr

structure IoError where
  kind : IoErrorKind
  message : String
deriving DecidableEq, Repr

/-- How a Rust computation ends without a value. -/
inductive Fault
  | io (error : IoError)
  | panic (message : String)
  /-- `handle_alloc_error`: the process ends on the spot, and nothing can catch it. -/
  | abort (message : String)
deriving DecidableEq, Repr

/-- The computation came to no end its caller sees. -/
def Fault.Crash : Fault → Prop
  | .io _ => False
  | .panic _ => True
  | .abort _ => True

/-- Computations that may return an `io::Error`, panic or end the process. -/
abbrev Io := Except Fault

/-- `io::Error::new(io::ErrorKind::InvalidData, msg)` as a result. -/
def invalidData {α : Type} (message : String) : Io α := .error (.io ⟨.invalidData, message⟩)

@[simp] theorem Io.ok_bind {α β : Type} (a : α) (f : α → Io β) : (Except.ok a >>= f) = f a := rfl

@[simp] theorem Io.error_bind {α β : Type} (e : Fault) (f : α → Io β) :
    ((Except.error e : Io α) >>= f) = .error e := rfl

@[simp] theorem Io.pure_eq {α : Type} (a : α) : (pure a : Io α) = .ok a := rfl

theorem Io.bind_eq_ok {α β : Type} {x : Io α} {f : α → Io β} {b : β} :
    (x >>= f) = .ok b ↔ ∃ a, x = .ok a ∧ f a = .ok b := by
  cases x with
  | error e => simp
  | ok a => simp

/-! ## Arithmetic and allocation -/

def usizeMax : Nat := 2 ^ 64 - 1

def isizeMax : Nat := 2 ^ 63 - 1

/-- `a + b` on `usize` with overflow checks. -/
def usizeAdd (a b : Nat) : Io Nat :=
  if a + b ≤ usizeMax then .ok (a + b) else .error (.panic "attempt to add with overflow")

def checkedAdd (a b : Nat) : Option Nat := if a + b ≤ usizeMax then some (a + b) else none

def checkedMul (a b : Nat) : Option Nat := if a * b ≤ usizeMax then some (a * b) else none

/-- A vector of `n` elements of `elemSize` bytes, from an allocator that `serves` some sizes and
refuses the others: requests above `isize::MAX` bytes panic before it is asked, and one that it
refuses ends the process. An empty vector takes nothing from it. -/
def allocVec (serves : Nat → Bool) (elemSize n : Nat) : Io Unit :=
  if isizeMax < elemSize * n then .error (.panic "capacity overflow")
  else if elemSize * n = 0 ∨ serves (elemSize * n) then .ok ()
  else .error (.abort ("memory allocation of " ++ toString (elemSize * n) ++ " bytes failed"))

/-- A buffer of so many bytes can be had. -/
def CanAlloc (serves : Nat → Bool) (bytes : Nat) : Prop :=
  bytes ≤ isizeMax ∧ (bytes = 0 ∨ serves bytes = true)

instance (serves : Nat → Bool) (bytes : Nat) : Decidable (CanAlloc serves bytes) :=
  inferInstanceAs (Decidable (_ ∧ _))

/-- An allocator with room for every size. -/
def roomy (_bytes : Nat) : Bool := true

theorem usizeAdd_ok {a b : Nat} (h : a + b ≤ usizeMax) : usizeAdd a b = .ok (a + b) := if_pos h

theorem canAlloc_roomy {bytes : Nat} (h : bytes ≤ isizeMax) : CanAlloc roomy bytes :=
  ⟨h, Or.inr rfl⟩

theorem allocVec_ok {serves : Nat → Bool} {elemSize n : Nat} (h : CanAlloc serves (elemSize * n)) :
    allocVec serves elemSize n = .ok () := by
  rw [allocVec, if_neg (Nat.not_lt.mpr h.1), if_pos h.2]

/-- What becomes of a buffer that cannot be had. -/
theorem allocVec_crashes {serves : Nat → Bool} {elemSize n : Nat}
    (h : ¬ CanAlloc serves (elemSize * n)) :
    ∃ fault, allocVec serves elemSize n = .error fault ∧ fault.Crash := by
  unfold allocVec
  split
  case isTrue => exact ⟨_, rfl, trivial⟩
  case isFalse hle =>
    have hrefused : ¬ (elemSize * n = 0 ∨ serves (elemSize * n)) :=
      fun hserves => h ⟨Nat.not_lt.mp hle, hserves⟩
    rw [if_neg hrefused]
    exact ⟨_, rfl, trivial⟩

/-! ## Reading -/

/-- What `Read::read_exact` returns at the end of a stream. -/
def eofError : IoError := ⟨.unexpectedEof, "failed to fill whole buffer"⟩

/-- `Read::read_exact` for `n` bytes on a stream with `s` left before its end. -/
def readExact (n : Nat) (s : List UInt8) : Io (List UInt8 × List UInt8) :=
  if n ≤ s.length then .ok (s.take n, s.drop n) else .error (.io eofError)

theorem readExact_append {bs rest : List UInt8} {n : Nat} (h : bs.length = n) :
    readExact n (bs ++ rest) = .ok (bs, rest) := by
  subst h
  simp [readExact]

@[simp] theorem readExact_one (b : UInt8) (rest : List UInt8) :
    readExact 1 (b :: rest) = .ok ([b], rest) := @readExact_append [b] rest 1 rfl

theorem readExact_short {s : List UInt8} {n : Nat} (h : s.length < n) :
    readExact n s = .error (.io eofError) :=
  if_neg (by omega)

theorem readExact_eq_ok {s bs rest : List UInt8} {n : Nat} :
    readExact n s = .ok (bs, rest) ↔ bs.length = n ∧ s = bs ++ rest := by
  constructor
  · intro h
    rw [readExact] at h
    split at h
    case isTrue hle =>
      cases h
      exact ⟨List.length_take_of_le hle, (List.take_append_drop n s).symm⟩
    case isFalse => cases h
  · rintro ⟨hlen, rfl⟩
    exact readExact_append hlen

/-- The two ways `read_exact` ends. -/
theorem readExact_cases (n : Nat) (s : List UInt8) :
    (∃ bs rest, readExact n s = .ok (bs, rest)) ∨ readExact n s = .error (.io eofError) := by
  rcases Nat.lt_or_ge s.length n with hshort | hlong
  · exact Or.inr (readExact_short hshort)
  · exact Or.inl ⟨s.take n, s.drop n, if_pos hlong⟩

/-- `u32::from_le_bytes(body[a..a + 4].try_into().unwrap())`. -/
def u32At (body : List UInt8) (a : Nat) : Io UInt32 :=
  if a + 4 ≤ body.length then .ok (u32FromLe ((body.drop a).take 4))
  else .error (.panic "range end index out of range")

/-- `u64::from_le_bytes(body[a..a + 8].try_into().unwrap())`. -/
def u64At (body : List UInt8) (a : Nat) : Io UInt64 :=
  if a + 8 ≤ body.length then .ok (u64FromLe ((body.drop a).take 8))
  else .error (.panic "range end index out of range")

/-- `i32::from_le_bytes(body[a..a + 4].try_into().unwrap())`. -/
def i32At (body : List UInt8) (a : Nat) : Io Int32 := (UInt32.toInt32 ·) <$> u32At body a

/-- A little-endian field is read back from the place it was written at. -/
theorem u32At_append {pre suf : List UInt8} {a : Nat} (x : UInt32) (h : pre.length = a) :
    u32At (pre ++ (u32ToLe x ++ suf)) a = .ok x := by
  subst h
  have htake : (u32ToLe x ++ suf).take 4 = u32ToLe x := by
    rw [List.take_append_of_le_length (by simp), List.take_of_length_le (by simp)]
  rw [u32At, if_pos (by simp), List.drop_left, htake, u32FromLe_u32ToLe]

theorem u64At_append {pre suf : List UInt8} {a : Nat} (x : UInt64) (h : pre.length = a) :
    u64At (pre ++ (u64ToLe x ++ suf)) a = .ok x := by
  subst h
  have htake : (u64ToLe x ++ suf).take 8 = u64ToLe x := by
    rw [List.take_append_of_le_length (by simp), List.take_of_length_le (by simp)]
  rw [u64At, if_pos (by simp), List.drop_left, htake, u64FromLe_u64ToLe]

theorem i32At_toLe (x : Int32) : i32At (i32ToLe x) 0 = .ok x := by
  have h := @u32At_append [] [] 0 x.toUInt32 rfl
  simp only [List.nil_append, List.append_nil] at h
  rw [i32At, i32ToLe, h]
  simp [Functor.map, Except.map]

theorem u64At_toLe (x : UInt64) : u64At (u64ToLe x) 0 = .ok x := by
  have h := @u64At_append [] [] 0 x rfl
  simpa using h

theorem u32At_ok {body : List UInt8} {a : Nat} (h : a + 4 ≤ body.length) :
    ∃ x, u32At body a = .ok x ∧ body.drop a = u32ToLe x ++ body.drop (a + 4) := by
  have hlen : ((body.drop a).take 4).length = 4 := by
    rw [List.length_take_of_le]
    rw [List.length_drop]
    omega
  refine ⟨_, if_pos h, ?_⟩
  rw [u32ToLe_u32FromLe hlen, ← List.drop_drop, List.take_append_drop]

theorem u64At_ok {body : List UInt8} {a : Nat} (h : a + 8 ≤ body.length) :
    ∃ x, u64At body a = .ok x ∧ body.drop a = u64ToLe x ++ body.drop (a + 8) := by
  have hlen : ((body.drop a).take 8).length = 8 := by
    rw [List.length_take_of_le]
    rw [List.length_drop]
    omega
  refine ⟨_, if_pos h, ?_⟩
  rw [u64ToLe_u64FromLe hlen, ← List.drop_drop, List.take_append_drop]

/-! Fields at literal offsets of a body written field by field: `simp` skips the fields in
front of the offset and reads the one at it. -/

@[simp] theorem u32At_append_of_le {xs ys : List UInt8} {a : Nat} (h : xs.length ≤ a) :
    u32At (xs ++ ys) a = u32At ys (a - xs.length) := by
  have hdrop : (xs ++ ys).drop a = ys.drop (a - xs.length) := by
    rw [List.drop_append, List.drop_eq_nil_of_le h, List.nil_append]
  have hiff : a + 4 ≤ (xs ++ ys).length ↔ a - xs.length + 4 ≤ ys.length := by
    rw [List.length_append]
    omega
  simp only [u32At, hdrop, hiff]

@[simp] theorem u64At_append_of_le {xs ys : List UInt8} {a : Nat} (h : xs.length ≤ a) :
    u64At (xs ++ ys) a = u64At ys (a - xs.length) := by
  have hdrop : (xs ++ ys).drop a = ys.drop (a - xs.length) := by
    rw [List.drop_append, List.drop_eq_nil_of_le h, List.nil_append]
  have hiff : a + 8 ≤ (xs ++ ys).length ↔ a - xs.length + 8 ≤ ys.length := by
    rw [List.length_append]
    omega
  simp only [u64At, hdrop, hiff]

@[simp] theorem u32At_zero (x : UInt32) (suf : List UInt8) :
    u32At (u32ToLe x ++ suf) 0 = .ok x := by
  simpa using @u32At_append [] suf 0 x rfl

@[simp] theorem u64At_zero (x : UInt64) (suf : List UInt8) :
    u64At (u64ToLe x ++ suf) 0 = .ok x := by
  simpa using @u64At_append [] suf 0 x rfl

/-! ## Strings -/

/-- `str::as_bytes`. -/
def utf8Bytes (s : String) : List UInt8 := s.toByteArray.data.toList

/-- `String::from_utf8`, the error dropped. -/
def fromUtf8? (bytes : List UInt8) : Option String := String.fromUTF8? ⟨bytes.toArray⟩

/-- Whether `c` may follow the lead byte `b` of a three- or four-byte sequence. -/
def secondByteOk (b c : UInt8) : Bool :=
  if b == 0xE0 then 0xA0 ≤ c && c ≤ 0xBF
  else if b == 0xED then 0x80 ≤ c && c ≤ 0x9F
  else if b == 0xF0 then 0x90 ≤ c && c ≤ 0xBF
  else if b == 0xF4 then 0x80 ≤ c && c ≤ 0x8F
  else 0x80 ≤ c && c ≤ 0xBF

/-- How many of the bytes ahead one replacement character stands for, when they do not
start a character: the longest prefix of a well-formed sequence, and at least one byte. -/
def illFormedLength : List UInt8 → Nat
  | b :: c :: d :: _ =>
    if 0xE0 ≤ b && b ≤ 0xEF && secondByteOk b c then 2
    else if 0xF0 ≤ b && b ≤ 0xF4 && secondByteOk b c then
      if 0x80 ≤ d && d ≤ 0xBF then 3 else 2
    else 1
  | [b, c] => if 0xE0 ≤ b && b ≤ 0xF4 && secondByteOk b c then 2 else 1
  | _ => 1

/-- The replacement loop of `from_utf8_lossy`; `fuel` bounds the bytes left. -/
def lossyChars : (fuel : Nat) → List UInt8 → List Char
  | 0, _ => []
  | _ + 1, [] => []
  | fuel + 1, bytes =>
    match ByteArray.utf8DecodeChar? ⟨bytes.toArray⟩ 0 with
    | some c => c :: lossyChars fuel (bytes.drop c.utf8Size)
    | none => Char.ofNat 0xFFFD :: lossyChars fuel (bytes.drop (illFormedLength bytes))

/-- `String::from_utf8_lossy(bytes).into_owned()`. -/
def fromUtf8Lossy (bytes : List UInt8) : String :=
  match fromUtf8? bytes with
  | some s => s
  | none => String.ofList (lossyChars bytes.length bytes)

@[simp] theorem fromUtf8?_utf8Bytes (s : String) : fromUtf8? (utf8Bytes s) = some s := by
  rw [fromUtf8?, utf8Bytes, Array.toArray_toList, String.fromUTF8?]
  exact dif_pos s.isValidUTF8

@[simp] theorem fromUtf8Lossy_utf8Bytes (s : String) : fromUtf8Lossy (utf8Bytes s) = s := by
  rw [fromUtf8Lossy, fromUtf8?_utf8Bytes]

@[simp] theorem length_utf8Bytes_append (a b : String) :
    (utf8Bytes (a ++ b)).length = (utf8Bytes a).length + (utf8Bytes b).length := by
  rw [utf8Bytes, String.toByteArray_append]
  simp [utf8Bytes]

/-- Every character takes at most four bytes. -/
theorem length_utf8Bytes_ofList_le (cs : List Char) :
    (utf8Bytes (String.ofList cs)).length ≤ 4 * cs.length := by
  induction cs with
  | nil => decide
  | cons c cs ih =>
    have hc := c.utf8Size_le_four
    have hsize : (utf8Bytes (String.ofList (c :: cs))).length
        = c.utf8Size + (utf8Bytes (String.ofList cs)).length := by
      rw [utf8Bytes, String.toByteArray_ofList, List.utf8Encode_cons, List.utf8Encode_singleton]
      simp [utf8Bytes]
    rw [hsize, List.length_cons]
    omega

/-- A decimal number below `10 ^ digits`. -/
theorem length_utf8Bytes_toString_le {n digits : Nat} (hdigits : 0 < digits)
    (h : n < 10 ^ digits) : (utf8Bytes (toString n)).length ≤ 4 * digits := by
  have hrepr : toString n = String.ofList (Nat.toDigits 10 n) := Nat.repr_eq_ofList_toDigits
  have hlen : (Nat.toDigits 10 n).length ≤ digits :=
    (Nat.length_toDigits_le_iff (by decide) hdigits).mpr h
  have hbytes := length_utf8Bytes_ofList_le (Nat.toDigits 10 n)
  rw [hrepr]
  omega

theorem length_utf8Bytes_uint64_le (x : UInt64) : (utf8Bytes (toString x.toNat)).length ≤ 80 :=
  @length_utf8Bytes_toString_le x.toNat 20 (by decide) (Nat.lt_trans x.toNat_lt (by decide))

theorem length_utf8Bytes_int32_le (x : Int32) : (utf8Bytes (toString x.toInt)).length ≤ 44 := by
  have hlt := x.toInt_lt
  have hge := x.le_toInt
  cases hx : x.toInt with
  | ofNat n =>
    rw [hx, Int.ofNat_eq_natCast] at hlt
    have hdigits := @length_utf8Bytes_toString_le n 10 (by decide) (by omega)
    exact Nat.le_trans hdigits (by decide)
  | negSucc n =>
    have hdigits := @length_utf8Bytes_toString_le (n + 1) 10 (by decide) (by omega)
    have hsign : toString (Int.negSucc n) = "-" ++ toString (n + 1) := rfl
    have hone : (utf8Bytes "-").length = 1 := by decide
    rw [hsign, length_utf8Bytes_append]
    omega

/-- The bytes of a decoded string are the bytes it was decoded from. -/
theorem utf8Bytes_of_fromUtf8? {bytes : List UInt8} {s : String}
    (h : fromUtf8? bytes = some s) : utf8Bytes s = bytes := by
  rw [fromUtf8?, String.fromUTF8?] at h
  split at h
  · obtain rfl := Option.some.inj h
    simp [utf8Bytes, String.fromUTF8]
  · cases h

end Lib
