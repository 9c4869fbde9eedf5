import Reckoner.Function

/-! # Texts as bytes

A text is stored as its UTF-8 bytes, and who goes through it byte by byte works with offsets.  An
offset may lie behind the end, and it may lie inside a character: to read or to cut there breaks
the program down (`Outcome.crashed`), and so does a counter that leaves its range.

* `slice?_eq_some_iff` — a cut succeeds exactly at the ends of characters.
* `ofUInt8_eq_iff` — a byte that looks like an ASCII character is one, so that the offset of such a
  byte and the offset behind it are ends of characters.
-/

namespace Reckoner

/-! ## Outcomes one after the other -/

namespace Outcome

variable {cause α β : Type}

/-- Goes on with the result; a failure and a breakdown are handed on. -/
def andThen (outcome : Outcome cause α) (next : α → Outcome cause β) : Outcome cause β :=
  match outcome with
  | returned value => next value
  | failed reason => failed reason
  | crashed note => crashed note

instance : Monad (Outcome cause) where
  pure := returned
  bind := andThen

@[simp] theorem returned_bind (value : α) (next : α → Outcome cause β) :
    (returned value >>= next) = next value := rfl

instance : LawfulMonad (Outcome cause) :=
  LawfulMonad.mk' _
    (fun outcome => by cases outcome <;> rfl)
    (fun _ _ => rfl)
    (fun outcome _ _ => by cases outcome <;> rfl)

@[simp] theorem ofExcept_ok (value : α) :
    ofExcept (.ok value : Except cause α) = returned value := rfl

theorem ofExcept_ne_crashed (result : Except cause α) (note : Option String) :
    ofExcept result ≠ crashed note := by
  intro same
  cases result <;> cases same

end Outcome

namespace Text

/-! ## Bytes and cuts -/

/-- The UTF-8 bytes of a text. -/
def bytes (text : List Char) : List UInt8 :=
  text.flatMap String.utf8EncodeChar

/-- How many bytes a text has. -/
def byteSize (text : List Char) : Nat :=
  (bytes text).length

@[simp] theorem bytes_nil : bytes [] = [] := rfl

@[simp] theorem bytes_cons (c : Char) (text : List Char) :
    bytes (c :: text) = String.utf8EncodeChar c ++ bytes text :=
  List.flatMap_cons

@[simp] theorem bytes_append (front back : List Char) :
    bytes (front ++ back) = bytes front ++ bytes back :=
  List.flatMap_append

@[simp] theorem byteSize_nil : byteSize [] = 0 := rfl

theorem byteSize_cons (c : Char) (text : List Char) :
    byteSize (c :: text) = c.utf8Size + byteSize text := by
  simp [byteSize]

@[simp] theorem byteSize_append (front back : List Char) :
    byteSize (front ++ back) = byteSize front + byteSize back := by
  simp [byteSize]

theorem utf8Size_of_ascii {c : Char} (ascii : c.toNat < 128) : c.utf8Size = 1 := by
  rw [Char.utf8Size_eq_one_iff, UInt32.le_iff_toNat_le]
  exact Nat.le_of_lt_succ ascii

theorem byteSize_concat (text : List Char) (c : Char) :
    byteSize (text ++ [c]) = byteSize text + c.utf8Size := by
  rw [byteSize_append, byteSize_cons, byteSize_nil, Nat.add_zero]

theorem byteSize_concat_ascii (text : List Char) {c : Char} (ascii : c.toNat < 128) :
    byteSize (text ++ [c]) = byteSize text + 1 := by
  rw [byteSize_concat, utf8Size_of_ascii ascii]

theorem byteSize_cons_ascii {c : Char} (ascii : c.toNat < 128) (text : List Char) :
    byteSize (c :: text) = 1 + byteSize text := by
  rw [byteSize_cons, utf8Size_of_ascii ascii]

@[simp] theorem byteSize_reverse (text : List Char) : byteSize text.reverse = byteSize text := by
  induction text with
  | nil => rfl
  | cons c rest ih => simp [ih, byteSize_cons, Nat.add_comm]

theorem byteSize_pos {text : List Char} (h : text ≠ []) : 0 < byteSize text := by
  obtain ⟨c, rest, rfl⟩ := List.exists_cons_of_ne_nil h
  have := c.utf8Size_pos
  simp only [byteSize_cons]
  omega

theorem byteSize_lt_cons (c : Char) (text : List Char) : byteSize text < byteSize (c :: text) := by
  have := c.utf8Size_pos
  rw [byteSize_cons]
  omega

theorem byteSize_le (text : List Char) : byteSize text ≤ 4 * text.length := by
  induction text with
  | nil => exact Nat.le_refl _
  | cons c rest ih =>
    have := c.utf8Size_le_four
    simp only [byteSize_cons, List.length_cons]
    omega

/-- The bytes of a character outside ASCII lie outside ASCII, one and all. -/
theorem toNat_of_mem_utf8EncodeChar {c : Char} {byte : UInt8}
    (member : byte ∈ String.utf8EncodeChar c) :
    byte.toNat = c.toNat ∨ 128 ≤ byte.toNat ∧ 128 ≤ c.toNat := by
  have value : c.toNat = c.val.toNat := rfl
  unfold String.utf8EncodeChar at member
  dsimp only at member
  rw [← value] at member
  split at member
  · obtain rfl := List.mem_singleton.1 member
    left
    rw [UInt8.toNat_ofNat']
    omega
  · right
    refine ⟨?_, by omega⟩
    split at member
    · simp only [List.mem_cons, List.not_mem_nil, or_false] at member
      obtain rfl | rfl := member <;> rw [UInt8.toNat_ofNat'] <;> omega
    · split at member
      · simp only [List.mem_cons, List.not_mem_nil, or_false] at member
        obtain rfl | rfl | rfl := member <;> rw [UInt8.toNat_ofNat'] <;> omega
      · simp only [List.mem_cons, List.not_mem_nil, or_false] at member
        obtain rfl | rfl | rfl | rfl := member <;> rw [UInt8.toNat_ofNat'] <;> omega

theorem ofUInt8_eq_iff {c d : Char} {byte : UInt8} (member : byte ∈ String.utf8EncodeChar c)
    (ascii : d.toNat < 128) : Char.ofUInt8 byte = d ↔ c = d := by
  have value : (Char.ofUInt8 byte).toNat = byte.toNat := rfl
  rw [← Char.toNat_inj, ← Char.toNat_inj, value]
  have := toNat_of_mem_utf8EncodeChar member
  omega

/-- Divides a text at an offset, which is neither behind its end nor inside a character. -/
def cut? (text : List Char) (offset : Nat) : Option (List Char × List Char) :=
  if offset = 0 then some ([], text)
  else
    match text with
    | [] => none
    | c :: rest =>
      if c.utf8Size ≤ offset then
        (cut? rest (offset - c.utf8Size)).map fun parts => (c :: parts.1, parts.2)
      else none

theorem cut?_append (front back : List Char) :
    cut? (front ++ back) (byteSize front) = some (front, back) := by
  induction front with
  | nil =>
    unfold cut?
    exact if_pos rfl
  | cons c front ih =>
    have := c.utf8Size_pos
    have rest : c.utf8Size + byteSize front - c.utf8Size = byteSize front := by omega
    rw [List.cons_append, cut?, byteSize_cons, if_neg (by omega)]
    simp [rest, ih]

theorem append_of_cut? {text front back : List Char} {offset : Nat}
    (h : cut? text offset = some (front, back)) :
    front ++ back = text ∧ byteSize front = offset := by
  fun_induction cut? text offset generalizing front with
  | case1 text =>
    cases h
    exact ⟨rfl, rfl⟩
  | case2 => cases h
  | case3 offset nonzero c rest fits ih =>
    obtain ⟨⟨others, last⟩, hcut, hparts⟩ := Option.map_eq_some_iff.1 h
    cases hparts
    obtain ⟨hrest, hsize⟩ := ih hcut
    refine ⟨by rw [List.cons_append, hrest], ?_⟩
    rw [byteSize_cons, hsize]
    omega
  | case4 => cases h

/-- The part of a text between two offsets. -/
def slice? (text : List Char) (start stop : Nat) : Option (List Char) :=
  (cut? text stop).bind fun upTo => (cut? upTo.1 start).map Prod.snd

theorem slice?_eq_some_iff {text part : List Char} {start stop : Nat} :
    slice? text start stop = some part ↔ ∃ before after,
      before ++ part ++ after = text ∧ byteSize before = start ∧
        byteSize before + byteSize part = stop := by
  constructor
  · intro h
    obtain ⟨⟨upTo, after⟩, hstop, hstart⟩ := Option.bind_eq_some_iff.1 h
    obtain ⟨⟨before, _⟩, hcut, rfl⟩ := Option.map_eq_some_iff.1 hstart
    obtain ⟨rfl, rfl⟩ := append_of_cut? hstop
    obtain ⟨rfl, rfl⟩ := append_of_cut? hcut
    exact ⟨before, after, rfl, rfl, (byteSize_append _ _).symm⟩
  · rintro ⟨before, after, rfl, rfl, rfl⟩
    rw [slice?, ← byteSize_append, cut?_append, Option.bind_some, cut?_append, Option.map_some]

theorem size_of_slice? {text part : List Char} {start stop : Nat}
    (h : slice? text start stop = some part) :
    start + byteSize part = stop ∧ stop ≤ byteSize text := by
  obtain ⟨before, after, rfl, rfl, rfl⟩ := slice?_eq_some_iff.1 h
  simp

/-! ## Steps that can break down -/

/-- The byte at an offset. -/
def byteAt (text : List Char) (offset : Nat) :
    Outcome Fault { _byte : UInt8 // offset < byteSize text } :=
  match h : (bytes text)[offset]? with
  | none => .crashed (some "index out of bounds")
  | some byte => .returned ⟨byte, (List.getElem?_eq_some_iff.1 h).1⟩

/-- The part of a text between two offsets; both have to be ends of characters, in this order. -/
def slice (text : List Char) (start stop : Nat) :
    Outcome Fault { part : List Char // start + byteSize part = stop ∧ stop ≤ byteSize text } :=
  match h : slice? text start stop with
  | none => .crashed (some "offset out of bounds or inside a character")
  | some part => .returned ⟨part, size_of_slice? h⟩

/-- The first two bytes are one character. -/
example : slice ['é', '('] 1 2 = .crashed (some "offset out of bounds or inside a character") := rfl

/-- An offset, some bytes further to the front. -/
def back (offset count : Nat) : Outcome Fault Nat :=
  if count ≤ offset then .returned (offset - count)
  else .crashed (some "attempt to subtract with overflow")

/-- A depth is counted in 32 bits, one of them for the sign. -/
def depthBound : Nat := 2147483648

/-- A depth, as long as the counter holds it. -/
def counted (depth : Int) : Outcome Fault Int :=
  if -(depthBound : Int) ≤ depth ∧ depth < depthBound then .returned depth
  else .crashed (some "attempt to add with overflow")

/-- Inside a character stand bytes of that character. -/
theorem byteAt_of_char (front rest : List Char) {c : Char} {step : Nat}
    (inside : step < c.utf8Size) :
    ∃ byte ∈ String.utf8EncodeChar c, ∃ offset,
      byteAt (front ++ c :: rest) (byteSize front + step) =
        .returned ⟨byte, offset⟩ := by
  have within : step < (String.utf8EncodeChar c).length := by
    rwa [String.length_utf8EncodeChar]
  have found : (bytes (front ++ c :: rest))[byteSize front + step]? =
      some (String.utf8EncodeChar c)[step] := by
    rw [bytes_append, bytes_cons, byteSize, List.getElem?_append_right (Nat.le_add_right _ _),
      Nat.add_sub_cancel_left, List.getElem?_append_left within, List.getElem?_eq_getElem within]
  refine ⟨_, List.getElem_mem within, (List.getElem?_eq_some_iff.1 found).1, ?_⟩
  unfold byteAt
  split
  · next missing => cases missing.symm.trans found
  · next byte h =>
    obtain rfl : byte = _ := Option.some.inj (h.symm.trans found)
    rfl

/-- A character of ASCII is its only byte. -/
theorem byteAt_of_ascii (front rest : List Char) {c : Char} (ascii : c.toNat < 128) :
    ∃ byte offset, Char.ofUInt8 byte = c ∧
      byteAt (front ++ c :: rest) (byteSize front) = .returned ⟨byte, offset⟩ := by
  obtain ⟨byte, member, offset, hbyte⟩ := byteAt_of_char front rest c.utf8Size_pos
  exact ⟨byte, offset, (ofUInt8_eq_iff member ascii).2 rfl, hbyte⟩

theorem back_of_add {offset count further : Nat} (h : further + count = offset) :
    back offset count = .returned further := by
  rw [back, if_pos (by omega), ← h, Nat.add_sub_cancel]

theorem counted_of_small {depth : Int} (small : depth.natAbs < depthBound) :
    counted depth = .returned depth :=
  if_pos (by omega)

theorem slice_of_parts {text before part after : List Char} {start stop : Nat}
    (whole : before ++ part ++ after = text) (starts : byteSize before = start)
    (stops : start + byteSize part = stop) :
    ∃ sized, slice text start stop = .returned ⟨part, sized⟩ := by
  have found : slice? text start stop = some part :=
    slice?_eq_some_iff.2 ⟨before, after, whole, starts, by rw [starts, stops]⟩
  unfold slice
  split
  · next missing => simp [missing] at found
  · next other h =>
    obtain rfl : other = part := by simpa [h] using found
    exact ⟨size_of_slice? h, rfl⟩

end Text
end Reckoner
