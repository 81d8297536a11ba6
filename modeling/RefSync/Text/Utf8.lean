/-
UTF-8 with the place and the cause of the first byte sequence that is not.
Overlong forms, surrogates and values above U+10FFFF are refused at the earliest
byte that shows them, so a faulty sequence never swallows a byte after it.
-/

namespace RefSync.Utf8

inductive Cause where
  | startByte
  | continuationByte
  | endOfData
deriving DecidableEq, Repr

def Cause.message : Cause → String
  | .startByte => "invalid start byte"
  | .continuationByte => "invalid continuation byte"
  | .endOfData => "unexpected end of data"

/-- The first faulty sequence: where it starts, its bytes, and what is wrong. -/
structure Malformed where
  offset : Nat
  bytes : List UInt8
  cause : Cause
deriving DecidableEq, Repr

private def hexByte (byte : UInt8) : String :=
  let digits := Nat.toDigits 16 byte.toNat
  "0x" ++ String.ofList (if digits.length < 2 then '0' :: digits else digits)

def Malformed.message (fault : Malformed) : String :=
  let place :=
    match fault.bytes with
    | [byte] => "byte " ++ hexByte byte ++ " in position " ++ toString fault.offset
    | bytes =>
        "bytes in position " ++ toString fault.offset ++ "-"
          ++ toString (fault.offset + bytes.length - 1)
  "'utf-8' codec can't decode " ++ place ++ ": " ++ fault.cause.message

/-- One decoding step: a character, or a faulty sequence of `length` bytes. -/
inductive Step where
  | char (char : Char) (rest : List UInt8)
  | fault (length : Nat) (cause : Cause) (rest : List UInt8)

private def isContinuation (byte : UInt8) : Bool :=
  0x80 ≤ byte && byte < 0xc0

/-- Whether `second` may follow the start byte `first`. -/
private def admits (first second : UInt8) : Bool :=
  isContinuation second
    && (first != 0xe0 || 0xa0 ≤ second) && (first != 0xed || second < 0xa0)
    && (first != 0xf0 || 0x90 ≤ second) && (first != 0xf4 || second < 0x90)

private def tail (byte : UInt8) : Nat :=
  byte.toNat % 64

/-- The step at a nonempty sequence `first :: rest`. -/
def step (first : UInt8) (rest : List UInt8) : Step :=
  if first < 0x80 then
    .char (Char.ofNat first.toNat) rest
  else if first < 0xc2 || 0xf5 ≤ first then
    .fault 1 .startByte rest
  else
    match rest with
    | [] => .fault 1 .endOfData []
    | second :: rest₂ =>
        if !admits first second then
          .fault 1 .continuationByte rest
        else if first < 0xe0 then
          .char (Char.ofNat (first.toNat % 32 * 64 + tail second)) rest₂
        else
          match rest₂ with
          | [] => .fault 2 .endOfData []
          | third :: rest₃ =>
              if !isContinuation third then
                .fault 2 .continuationByte rest₂
              else if first < 0xf0 then
                .char (Char.ofNat ((first.toNat % 16 * 64 + tail second) * 64 + tail third)) rest₃
              else
                match rest₃ with
                | [] => .fault 3 .endOfData []
                | fourth :: rest₄ =>
                    if !isContinuation fourth then
                      .fault 3 .continuationByte rest₃
                    else
                      .char (Char.ofNat (((first.toNat % 8 * 64 + tail second) * 64 + tail third) * 64
                        + tail fourth)) rest₄

def Step.rest : Step → List UInt8
  | .char _ rest => rest
  | .fault _ _ rest => rest

theorem step_rest_length (first : UInt8) (rest : List UInt8) :
    (step first rest).rest.length ≤ rest.length := by
  unfold step
  repeat' split
  all_goals simp [Step.rest]
  all_goals omega

private theorem rest_shorter {first : UInt8} {rest : List UInt8} {outcome : Step}
    (found : step first rest = outcome) : outcome.rest.length < (first :: rest).length := by
  subst found
  exact Nat.lt_succ_of_le (step_rest_length first rest)

/-- Decoding that keeps the characters read so far in reverse. -/
private def decodeFrom (offset : Nat) (read : List Char) : List UInt8 → Except Malformed (List Char)
  | [] => .ok read.reverse
  | first :: rest =>
      match found : step first rest with
      | .char char after =>
          decodeFrom (offset + ((rest.length + 1) - after.length)) (char :: read) after
      | .fault length cause _ =>
          .error { offset, bytes := (first :: rest).take length, cause }
termination_by bytes => bytes.length
decreasing_by exact rest_shorter found

def decode (bytes : List UInt8) : Except Malformed (List Char) :=
  decodeFrom 0 [] bytes

/-- Decoding that puts U+FFFD for each faulty sequence. -/
def decodeLossyChars : List UInt8 → List Char
  | [] => []
  | first :: rest =>
      match _taken : step first rest with
      | .char char after => char :: decodeLossyChars after
      | .fault _ _ after => '\ufffd' :: decodeLossyChars after
termination_by bytes => bytes.length
decreasing_by
  · exact rest_shorter _taken
  · exact rest_shorter _taken

def decodeLossy (bytes : List UInt8) : String :=
  String.ofList (decodeLossyChars bytes)

def encode (text : String) : List UInt8 :=
  text.toUTF8.toList

/-! ### What a step takes -/

/-- The character that a step is shown as. -/
def Step.shown : Step → Char
  | .char read _ => read
  | .fault _ _ _ => '\ufffd'

/-- A byte that no character starts with and that goes on with one. -/
def Continues (byte : UInt8) : Prop :=
  0x80 ≤ byte ∧ byte < 0xc0

private theorem continues_of_isContinuation {byte : UInt8} (is : isContinuation byte = true) :
    Continues byte := by
  simpa [isContinuation, Continues] using is

private theorem continues_of_admits {first second : UInt8} (admitted : admits first second = true) :
    Continues second := by
  simp only [admits, Bool.and_eq_true] at admitted
  exact continues_of_isContinuation admitted.1.1.1.1

theorem step_of_continues {byte : UInt8} (continues : Continues byte) (rest : List UInt8) :
    step byte rest = .fault 1 .startByte rest := by
  obtain ⟨low, high⟩ := continues
  simp only [UInt8.le_iff_toNat_le, UInt8.lt_iff_toNat_lt] at low high
  unfold step
  rw [if_neg, if_pos]
  · simp only [Bool.or_eq_true, decide_eq_true_eq, UInt8.lt_iff_toNat_lt, UInt8.le_iff_toNat_le]
    left
    simp at high ⊢
    omega
  · simp only [UInt8.lt_iff_toNat_lt]
    simp at low ⊢
    omega

/-- A step takes continuing bytes only after its first one. -/
theorem step_takes (first : UInt8) (rest : List UInt8) :
    ∃ taken, rest = taken ++ (step first rest).rest ∧ ∀ byte ∈ taken, Continues byte := by
  unfold step
  split
  · exact ⟨[], rfl, nofun⟩
  split
  · exact ⟨[], rfl, nofun⟩
  match rest with
  | [] => exact ⟨[], rfl, nofun⟩
  | second :: rest₂ =>
      dsimp only
      split
      · exact ⟨[], rfl, nofun⟩
      rename_i admitted
      have continues : Continues second := continues_of_admits (by simpa using admitted)
      split
      · exact ⟨[second], rfl, by simpa using continues⟩
      match rest₂ with
      | [] => exact ⟨[second], rfl, by simpa using continues⟩
      | third :: rest₃ =>
          dsimp only
          split
          · exact ⟨[second], rfl, by simpa using continues⟩
          rename_i goesOn
          have thirdContinues : Continues third := continues_of_isContinuation (by simpa using goesOn)
          split
          · exact ⟨[second, third], rfl, by simpa using ⟨continues, thirdContinues⟩⟩
          match rest₃ with
          | [] => exact ⟨[second, third], rfl, by simpa using ⟨continues, thirdContinues⟩⟩
          | fourth :: rest₄ =>
              dsimp only
              split
              · exact ⟨[second, third], rfl, by simpa using ⟨continues, thirdContinues⟩⟩
              rename_i goesOn
              have fourthContinues := continues_of_isContinuation (by simpa using goesOn)
              exact ⟨[second, third, fourth], rfl,
                by simpa using ⟨continues, thirdContinues, fourthContinues⟩⟩

/-- What follows some bytes leaves the step at their start alone, unless they end in the middle of it. -/
theorem step_append (first : UInt8) (left right : List UInt8) :
    ((step first (left ++ right)).rest = (step first left).rest ++ right
        ∧ (step first (left ++ right)).shown = (step first left).shown)
      ∨ (0x80 ≤ first ∧ step first left = .fault (left.length + 1) .endOfData []
        ∧ (step first (left ++ right)).rest.length < right.length) := by
  unfold step
  split
  · exact Or.inl ⟨rfl, rfl⟩
  rename_i lead
  have high : 0x80 ≤ first := by simpa using lead
  split
  · exact Or.inl ⟨rfl, rfl⟩
  match left, right with
  | left, [] => simp
  | [], second :: right =>
      dsimp only [List.nil_append]
      repeat' split
      all_goals first
        | exact Or.inl ⟨rfl, rfl⟩
        | exact Or.inr ⟨high, rfl, by simp [Step.rest] <;> omega⟩
  | [second], third :: right =>
      dsimp only [List.cons_append, List.nil_append]
      repeat' split
      all_goals first
        | exact Or.inl ⟨rfl, rfl⟩
        | exact Or.inr ⟨high, rfl, by simp [Step.rest] <;> omega⟩
  | [second, third], fourth :: right =>
      dsimp only [List.cons_append, List.nil_append]
      repeat' split
      all_goals first
        | exact Or.inl ⟨rfl, rfl⟩
        | exact Or.inr ⟨high, rfl, by simp [Step.rest]⟩
  | second :: third :: fourth :: left, fifth :: right =>
      dsimp only [List.cons_append]
      repeat' split
      all_goals exact Or.inl ⟨rfl, rfl⟩

private theorem bounds_of_admits {first second : UInt8} (admitted : admits first second = true) :
    0x80 ≤ second.toNat ∧ second.toNat < 0xc0 ∧ (first.toNat = 0xe0 → 0xa0 ≤ second.toNat)
      ∧ (first.toNat = 0xed → second.toNat < 0xa0) ∧ (first.toNat = 0xf0 → 0x90 ≤ second.toNat)
      ∧ (first.toNat = 0xf4 → second.toNat < 0x90) := by
  simp only [admits, isContinuation, Bool.and_eq_true, Bool.or_eq_true, decide_eq_true_eq, bne_iff_ne,
    ne_eq, ← UInt8.toNat_inj, UInt8.le_iff_toNat_le, UInt8.lt_iff_toNat_lt] at admitted
  simp only [UInt8.reduceToNat] at admitted
  omega

private theorem toNat_ofNat {number : Nat}
    (valid : number < 0xd800 ∨ 0xdfff < number ∧ number < 0x110000) :
    (Char.ofNat number).toNat = number := by
  have isValid : number.isValidChar := valid
  rw [Char.ofNat, dif_pos isValid]
  rfl

/-- What a byte beyond ASCII begins is shown as a character beyond ASCII. -/
theorem step_shown {first : UInt8} (high : 0x80 ≤ first) (rest : List UInt8) :
    0x80 ≤ (step first rest).shown.toNat := by
  have refused : 0x80 ≤ '\ufffd'.toNat := by decide
  unfold step
  rw [if_neg (by simpa using high)]
  split
  · exact refused
  rename_i lead
  have lead : 0xc2 ≤ first.toNat ∧ first.toNat < 0xf5 := by
    simp only [Bool.or_eq_true, decide_eq_true_eq, UInt8.le_iff_toNat_le, UInt8.lt_iff_toNat_lt,
      UInt8.reduceToNat] at lead
    omega
  match rest with
  | [] => exact refused
  | second :: rest₂ =>
      dsimp only
      split
      · exact refused
      rename_i admitted
      have bounds := bounds_of_admits (by simpa using admitted)
      split
      · rename_i two
        simp only [UInt8.lt_iff_toNat_lt, UInt8.reduceToNat] at two
        rw [Step.shown, tail, toNat_ofNat (by omega)]
        omega
      rename_i three
      simp only [UInt8.lt_iff_toNat_lt, UInt8.reduceToNat] at three
      match rest₂ with
      | [] => exact refused
      | third :: rest₃ =>
          dsimp only
          split
          · exact refused
          split
          · rename_i three
            simp only [UInt8.lt_iff_toNat_lt, UInt8.reduceToNat] at three
            rw [Step.shown, tail, tail, toNat_ofNat (by omega)]
            omega
          rename_i four
          simp only [UInt8.lt_iff_toNat_lt, UInt8.reduceToNat] at four
          match rest₃ with
          | [] => exact refused
          | fourth :: rest₄ =>
              dsimp only
              split
              · exact refused
              rw [Step.shown, tail, tail, tail, toNat_ofNat (by omega)]
              omega

end RefSync.Utf8
