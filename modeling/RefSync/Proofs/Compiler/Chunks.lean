/-
What is shown of output that comes in chunks. A chunk is decoded and cleaned on its own, so a character
or a clearing sequence that lies across a cut is not recognized: more is shown then than of the whole
stream at once, and as much exactly where no cut is of that kind.
-/

import RefSync.Compiler.Screen

namespace RefSync

namespace Utf8

/-- Whether a cut lies within bytes that are decoded as one. -/
def Splits (left right : List UInt8) : Prop :=
  ∃ before first taken, left = before ++ first :: taken
    ∧ (step first (taken ++ right)).rest.length < right.length

theorem not_splits_nil (right : List UInt8) : ¬Splits [] right := by
  rintro ⟨before, first, taken, impossible, _⟩
  simp at impossible

theorem decodeLossyChars_cons (first : UInt8) (rest : List UInt8) :
    decodeLossyChars (first :: rest)
      = (step first rest).shown :: decodeLossyChars (step first rest).rest := by
  rw [decodeLossyChars]
  split
  · rename_i read after found
    rw [found, Step.shown, Step.rest]
  · rename_i length cause after found
    rw [found, Step.shown, Step.rest]

/-- Bytes that go on with a character count one by one where there is none. -/
theorem decodeLossyChars_continues {inside : List UInt8} (continues : ∀ byte ∈ inside, Continues byte)
    (rest : List UInt8) :
    decodeLossyChars (inside ++ rest)
      = List.replicate inside.length '\ufffd' ++ decodeLossyChars rest := by
  induction inside with
  | nil => rfl
  | cons first inside ih =>
      obtain ⟨here, others⟩ := List.forall_mem_cons.mp continues
      rw [List.cons_append, decodeLossyChars_cons, step_of_continues here, Step.shown, Step.rest,
        ih others]
      rfl

/-- A cut is within a later character exactly where it is so after the first one. -/
theorem splits_step {first : UInt8} {rest right : List UInt8}
    (within : (step first (rest ++ right)).rest = (step first rest).rest ++ right) :
    Splits (first :: rest) right ↔ Splits (step first rest).rest right := by
  obtain ⟨taken, parts, continues⟩ := step_takes first rest
  generalize after : (step first rest).rest = later at within parts
  constructor
  · rintro ⟨before, lead, inside, spelled, shorter⟩
    cases before with
    | nil =>
        cases spelled
        rw [within, List.length_append] at shorter
        omega
    | cons other before =>
        obtain ⟨rfl, same⟩ := List.cons.inj spelled
        rw [parts] at same
        rcases List.append_eq_append_iff.mp same with ⟨more, rfl, isLater⟩ | ⟨more, isTaken, isLead⟩
        · exact ⟨more, lead, inside, isLater, shorter⟩
        · cases more with
          | nil => exact ⟨[], lead, inside, isLead.symm, shorter⟩
          | cons other more =>
              obtain ⟨rfl, isInside⟩ := List.cons.inj isLead
              have goesOn : Continues lead := continues lead (by simp [isTaken])
              rw [step_of_continues goesOn, Step.rest, List.length_append] at shorter
              omega
  · rintro ⟨before, lead, inside, isLater, shorter⟩
    exact ⟨first :: taken ++ before, lead, inside, by simp [parts, isLater], shorter⟩

/-- Bytes on both sides of a cut are decoded as what they are together, or else the cut leaves more
than one mark of a fault in place of one character. -/
theorem decodeLossyChars_append (left right : List UInt8) :
    (¬Splits left right
        ∧ decodeLossyChars (left ++ right) = decodeLossyChars left ++ decodeLossyChars right)
      ∨ (Splits left right ∧ ∃ front read more back, 0x80 ≤ read.toNat
        ∧ decodeLossyChars left = front ++ ['\ufffd']
        ∧ decodeLossyChars right = List.replicate (more + 1) '\ufffd' ++ back
        ∧ decodeLossyChars (left ++ right) = front ++ read :: back) := by
  induction size : left.length using Nat.strongRecOn generalizing left with
  | ind count ih =>
    cases left with
    | nil => exact Or.inl ⟨not_splits_nil right, by simp [decodeLossyChars]⟩
    | cons first rest =>
        rw [List.cons_append, decodeLossyChars_cons, decodeLossyChars_cons]
        rcases step_append first rest right with ⟨within, shown⟩ | ⟨high, ends, shorter⟩
        · have smaller := step_rest_length first rest
          rw [splits_step within, within, shown]
          rcases ih _ (by simp at size; omega) (step first rest).rest rfl with
            ⟨whole, together⟩ | ⟨splits, front, read, more, back, beyond, isLeft, isRight, isBoth⟩
          · exact Or.inl ⟨whole, by rw [together, List.cons_append]⟩
          · exact Or.inr ⟨splits, _ :: front, read, more, back, beyond, by rw [isLeft, List.cons_append],
              isRight, by rw [isBoth, List.cons_append]⟩
        · obtain ⟨taken, parts, continues⟩ := step_takes first (rest ++ right)
          generalize after : (step first (rest ++ right)).rest = back at shorter parts
          obtain ⟨inside, rfl, isRight⟩ : ∃ inside, taken = rest ++ inside ∧ right = inside ++ back := by
            rcases List.append_eq_append_iff.mp parts with ⟨inside, isTaken, isRight⟩ | ⟨more, _, isBack⟩
            · exact ⟨inside, isTaken, isRight⟩
            · rw [isBack, List.length_append] at shorter
              omega
          subst isRight
          have goesOn : ∀ byte ∈ inside, Continues byte := fun byte member =>
            continues byte (List.mem_append_right rest member)
          obtain ⟨more, count⟩ : ∃ more, inside.length = more + 1 :=
            ⟨inside.length - 1, by simp at shorter; omega⟩
          refine Or.inr ⟨⟨[], first, rest, rfl, by rw [after]; exact shorter⟩, [], _, more, decodeLossyChars back,
            step_shown high _, ?_, ?_, rfl⟩
          · rw [ends, Step.shown, Step.rest, decodeLossyChars]
            rfl
          · rw [decodeLossyChars_continues goesOn, count]

end Utf8

namespace Compiler

/-- The sequences that clear the screen. -/
def clearings : List (List Char) :=
  [['\x1b', 'c'], ['\x1b', '[', '2', 'J'], ['\x1b', '[', '3', 'J']]

/-- Whether a clearing sequence lies across a cut. -/
def ClearsAcross (left right : List Char) : Prop :=
  ∃ start rest, start ≠ [] ∧ rest ≠ [] ∧ start ++ rest ∈ clearings ∧ start <:+ left ∧ rest <+: right

theorem stripChars_clearing {clearing : List Char} (clears : clearing ∈ clearings) (rest : List Char) :
    stripChars (clearing ++ rest) = stripChars rest := by
  simp only [clearings, List.mem_cons, List.not_mem_nil, or_false] at clears
  rcases clears with rfl | rfl | rfl <;> rfl

theorem stripChars_cons {char : Char} {rest : List Char}
    (other : ∀ clearing ∈ clearings, ¬clearing <+: char :: rest) :
    stripChars (char :: rest) = char :: stripChars rest := by
  rw [stripChars.eq_def]
  split
  · rename_i after same
    exact absurd ⟨after, same.symm⟩ (other ['\x1b', 'c'] (by decide))
  · rename_i after same
    exact absurd ⟨after, same.symm⟩ (other ['\x1b', '[', '2', 'J'] (by decide))
  · rename_i after same
    exact absurd ⟨after, same.symm⟩ (other ['\x1b', '[', '3', 'J'] (by decide))
  · rename_i same
    cases same
    rfl
  · rename_i impossible
    cases impossible

/-- Only the first character of a clearing sequence is an escape. -/
theorem clearing_starts : ∀ clearing ∈ clearings,
    clearing.head? = some '\x1b' ∧ '\x1b' ∉ clearing.tail := by
  decide

theorem eq_of_prefix : ∀ clearing ∈ clearings, ∀ other ∈ clearings, clearing <+: other →
    clearing = other := by
  decide

/-- What starts and goes on with a clearing sequence. -/
theorem escape_of_start {start rest : List Char} (clears : start ++ rest ∈ clearings)
    (nonempty : start ≠ []) :
    ∃ more, start = '\x1b' :: more ∧ '\x1b' ∉ more ∧ '\x1b' ∉ rest := by
  obtain ⟨head, tail⟩ := clearing_starts _ clears
  cases start with
  | nil => exact absurd rfl nonempty
  | cons first more =>
      obtain rfl : first = '\x1b' := Option.some.inj head
      rw [List.cons_append, List.tail_cons, List.mem_append, not_or] at tail
      exact ⟨more, rfl, tail⟩

theorem stripChars_plain {text : List Char} (plain : '\x1b' ∉ text) (rest : List Char) :
    stripChars (text ++ rest) = text ++ stripChars rest := by
  induction text with
  | nil => rfl
  | cons first text ih =>
      rw [List.mem_cons, not_or] at plain
      rw [List.cons_append, List.cons_append, stripChars_cons, ih plain.2]
      rintro clearing clears ⟨after, same⟩
      have head := (clearing_starts clearing clears).1
      cases clearing with
      | nil => cases head
      | cons other others =>
          cases head
          exact plain.1 (List.cons.inj same).1

/-- A sequence that lies across a cut begins after one that lies before the cut. -/
theorem clearsAcross_clearing {clearing : List Char} (clears : clearing ∈ clearings)
    (after right : List Char) :
    ClearsAcross (clearing ++ after) right ↔ ClearsAcross after right := by
  constructor
  · rintro ⟨start, rest, hasStart, hasRest, across, ⟨before, same⟩, begins⟩
    obtain ⟨more, rfl, _, _⟩ := escape_of_start across hasStart
    rcases List.append_eq_append_iff.mp same with ⟨between, isClearing, isStart⟩ | ⟨between, isBefore, isAfter⟩
    · cases between with
      | nil => exact ⟨_, rest, hasStart, hasRest, across, isStart ▸ List.suffix_refl _, begins⟩
      | cons other between =>
          -- The sequence would have to begin inside the one before it, or to go on from it.
          obtain ⟨rfl, isMore⟩ : '\x1b' = other ∧ more = between ++ after := List.cons.inj isStart
          cases before with
          | nil =>
              have same := eq_of_prefix _ clears _ across ⟨after ++ rest, by
                simp [isClearing, isMore]⟩
              rw [isClearing, isMore] at same
              have empty := congrArg List.length same
              simp only [List.nil_append, List.length_cons, List.length_append] at empty
              exact absurd (List.length_eq_zero_iff.mp (by omega)) hasRest
          | cons first before =>
              have tail := (clearing_starts clearing clears).2
              rw [isClearing] at tail
              exact absurd (by simp) tail
    · exact ⟨_, rest, hasStart, hasRest, across, ⟨between, isAfter.symm⟩, begins⟩
  · rintro ⟨start, rest, hasStart, hasRest, across, ends, begins⟩
    exact ⟨start, rest, hasStart, hasRest, across, ends.trans (List.suffix_append _ _), begins⟩

/-- Texts on both sides of a cut are stripped of what they are together stripped of, or else a
sequence that lies across the cut stays. -/
theorem stripChars_append (left right : List Char) :
    (¬ClearsAcross left right ∧ stripChars (left ++ right) = stripChars left ++ stripChars right)
      ∨ (ClearsAcross left right
        ∧ (stripChars (left ++ right)).length < (stripChars left ++ stripChars right).length) := by
  induction size : left.length using Nat.strongRecOn generalizing left with
  | ind count ih =>
    cases left with
    | nil =>
        refine Or.inl ⟨?_, rfl⟩
        rintro ⟨start, _, nonempty, _, _, ends, _⟩
        exact nonempty (List.suffix_nil.mp ends)
    | cons char rest =>
        by_cases before : ∃ clearing ∈ clearings, clearing <+: char :: rest
        · obtain ⟨clearing, clears, after, same⟩ := before
          have smaller : after.length < count := by
            have head := (clearing_starts clearing clears).1
            cases clearing with
            | nil => cases head
            | cons _ _ =>
                rw [← size, ← same]
                simp only [List.cons_append, List.length_cons, List.length_append]
                omega
          rw [← same, List.append_assoc, stripChars_clearing clears, stripChars_clearing clears,
            clearsAcross_clearing clears]
          exact ih _ smaller after rfl
        · have first : ∀ clearing ∈ clearings, ¬clearing <+: char :: rest := fun clearing clears begins =>
            before ⟨clearing, clears, begins⟩
          rw [stripChars_cons first]
          by_cases across : ∃ clearing ∈ clearings, clearing <+: char :: rest ++ right
          · obtain ⟨clearing, clears, after, same⟩ := across
            rcases List.append_eq_append_iff.mp same with ⟨inside, isLeft, _⟩ | ⟨inside, isClearing, isRight⟩
            · exact absurd ⟨inside, isLeft.symm⟩ (first clearing clears)
            · have nonempty : inside ≠ [] := by
                rintro rfl
                exact first clearing clears ⟨[], by rw [isClearing, List.append_nil, List.append_nil]⟩
              rw [isClearing] at clears
              obtain ⟨more, isStart, plainRest, plainInside⟩ := escape_of_start clears (by simp)
              obtain ⟨rfl, rfl⟩ := List.cons.inj isStart
              have stripped := stripChars_plain plainRest []
              refine Or.inr ⟨⟨_, inside, by simp, nonempty, clears, List.suffix_refl _,
                ⟨after, isRight.symm⟩⟩, ?_⟩
              rw [← same, isClearing, stripChars_clearing clears, isRight, stripChars_plain plainInside]
              simp only [List.append_nil, stripChars] at stripped
              rw [stripped]
              simp only [List.cons_append, List.length_cons, List.length_append]
              omega
          · have none : ∀ clearing ∈ clearings, ¬clearing <+: char :: (rest ++ right) :=
              fun clearing clears begins => across ⟨clearing, clears, begins⟩
            have later : ClearsAcross (char :: rest) right ↔ ClearsAcross rest right := by
              constructor
              · rintro ⟨start, ending, hasStart, hasRest, clears, ends, begins⟩
                rcases List.suffix_cons_iff.mp ends with rfl | ends
                · exact absurd ((List.prefix_append_right_inj _).mpr begins) (none _ clears)
                · exact ⟨start, ending, hasStart, hasRest, clears, ends, begins⟩
              · rintro ⟨start, ending, hasStart, hasRest, clears, ends, begins⟩
                exact ⟨start, ending, hasStart, hasRest, clears, ends.trans (List.suffix_cons _ _), begins⟩
            rw [List.cons_append, stripChars_cons none, later]
            rcases ih rest.length (by simp at size; omega) rest rfl with ⟨clean, together⟩ | ⟨cut, longer⟩
            · exact Or.inl ⟨clean, by rw [together, List.cons_append]⟩
            · exact Or.inr ⟨cut, by simpa using longer⟩

/-- A character beyond ASCII is in no clearing sequence. -/
theorem stripChars_beyond (front : List Char) {read : Char} (beyond : 0x80 ≤ read.toNat)
    (back : List Char) :
    stripChars (front ++ read :: back) = stripChars front ++ read :: stripChars back := by
  have ascii : ∀ clearing ∈ clearings, clearing.all (·.toNat < 0x80) = true := by decide
  have other : '\x1b' ∉ [read] := by
    rw [List.mem_singleton]
    rintro rfl
    exact absurd beyond (by decide)
  rcases stripChars_append front (read :: back) with
    ⟨_, together⟩ | ⟨⟨start, rest, _, nonempty, clears, _, after, same⟩, _⟩
  · rw [together]
    exact congrArg (stripChars front ++ ·) (stripChars_plain other back)
  · cases rest with
    | nil => exact absurd rfl nonempty
    | cons first rest =>
        obtain ⟨rfl, _⟩ := List.cons.inj same
        have below := of_decide_eq_true (List.all_eq_true.mp (ascii _ clears) first (by simp))
        omega

/-- What is shown of bytes, as characters. -/
def shownChars (bytes : List UInt8) : List Char :=
  stripChars (Utf8.decodeLossyChars bytes)

theorem showChunk_eq (bytes : List UInt8) : showChunk bytes = String.ofList (shownChars bytes) := by
  rw [showChunk, strip, Utf8.decodeLossy, String.toList_ofList, shownChars]

theorem showChunks_eq (chunks : List (List UInt8)) :
    showChunks chunks = String.ofList (chunks.flatMap shownChars) := by
  rw [← String.toList_inj, showChunks, String.toList_join, List.flatMap_map, String.toList_ofList]
  simp only [showChunk_eq, String.toList_ofList]

/-- Whether neither a character nor a sequence that clears the screen lies across a cut. -/
structure IsCleanCut (left right : List UInt8) : Prop where
  characters : ¬Utf8.Splits left right
  sequences : ¬ClearsAcross (Utf8.decodeLossyChars left) (Utf8.decodeLossyChars right)

/-- Two parts are shown as what they are together, or else more is shown of them. -/
theorem shownChars_append (left right : List UInt8) :
    (IsCleanCut left right ∧ shownChars (left ++ right) = shownChars left ++ shownChars right)
      ∨ (¬IsCleanCut left right
        ∧ (shownChars (left ++ right)).length < (shownChars left ++ shownChars right).length) := by
  unfold shownChars
  rcases Utf8.decodeLossyChars_append left right with
    ⟨whole, together⟩ | ⟨splits, front, read, more, back, beyond, isLeft, isRight, isBoth⟩
  · rw [together]
    rcases stripChars_append (Utf8.decodeLossyChars left) (Utf8.decodeLossyChars right) with
      ⟨clean, stripped⟩ | ⟨across, longer⟩
    · exact Or.inl ⟨⟨whole, clean⟩, stripped⟩
    · exact Or.inr ⟨fun clean => clean.sequences across, longer⟩
  · have marks : '\x1b' ∉ List.replicate (more + 1) '\ufffd' := fun member =>
      absurd (List.eq_of_mem_replicate member) (by decide)
    refine Or.inr ⟨fun clean => clean.characters splits, ?_⟩
    rw [isLeft, isRight, isBoth, stripChars_beyond front beyond, stripChars_beyond front (by decide),
      stripChars_plain marks]
    simp only [List.length_append, List.length_cons, List.length_replicate]
    omega

/-- Whether every character and every sequence that begins in a chunk ends in it. -/
def AreClean (chunks : List (List UInt8)) : Prop :=
  ∀ before chunk after, chunks = before ++ chunk :: after → IsCleanCut chunk after.flatten

theorem areClean_cons {chunk : List UInt8} {chunks : List (List UInt8)} :
    AreClean (chunk :: chunks) ↔ IsCleanCut chunk chunks.flatten ∧ AreClean chunks := by
  constructor
  · exact fun clean => ⟨clean [] chunk chunks rfl, fun before other after same =>
      clean (chunk :: before) other after (by rw [same, List.cons_append])⟩
  · rintro ⟨first, others⟩ before other after same
    cases before with
    | nil =>
        cases same
        exact first
    | cons head before => exact others before other after (List.cons.inj same).2

/-- Chunks are shown as the whole stream, or else more is shown of them. -/
theorem shownChars_flatten (chunks : List (List UInt8)) :
    (AreClean chunks ∧ shownChars chunks.flatten = chunks.flatMap shownChars)
      ∨ (¬AreClean chunks
        ∧ (shownChars chunks.flatten).length < (chunks.flatMap shownChars).length) := by
  induction chunks with
  | nil =>
      refine Or.inl ⟨fun before _ _ impossible => by simp at impossible, ?_⟩
      rw [List.flatten_nil, shownChars, Utf8.decodeLossyChars]
      rfl
  | cons chunk chunks ih =>
      rw [List.flatten_cons, List.flatMap_cons, areClean_cons]
      have longer := shownChars_append chunk chunks.flatten
      rcases ih with ⟨clean, together⟩ | ⟨unclean, more⟩
      · rw [← together]
        rcases longer with ⟨cut, same⟩ | ⟨unclean, more⟩
        · exact Or.inl ⟨⟨cut, clean⟩, same⟩
        · exact Or.inr ⟨fun both => unclean both.1, more⟩
      · refine Or.inr ⟨fun both => unclean both.2, ?_⟩
        have most : (shownChars (chunk ++ chunks.flatten)).length
            ≤ (shownChars chunk ++ shownChars chunks.flatten).length := by
          rcases longer with ⟨_, same⟩ | ⟨_, fewer⟩
          · exact Nat.le_of_eq (congrArg List.length same)
          · exact Nat.le_of_lt fewer
        rw [List.length_append] at most ⊢
        omega

/-- A stream that comes in chunks is shown as if it came at once exactly where every character and
every sequence that clears the screen, which begins in a chunk, also ends in it. -/
theorem showChunks_eq_whole_iff (chunks : List (List UInt8)) :
    showChunks chunks = showChunk chunks.flatten ↔ AreClean chunks := by
  rw [showChunks_eq, showChunk_eq, String.ofList_inj]
  rcases shownChars_flatten chunks with ⟨clean, together⟩ | ⟨unclean, more⟩
  · exact ⟨fun _ => clean, fun _ => together.symm⟩
  · exact ⟨fun same => absurd more (by rw [same]; exact Nat.lt_irrefl _), fun clean => absurd clean unclean⟩

/-- A sequence and a character that are cut are shown in pieces. -/
theorem cut_output_is_garbled :
    showChunks [[0x1b], [0x63]] = "\x1bc" ∧ showChunk [0x1b, 0x63] = ""
      ∧ showChunks [[0xc3], [0xa9]] = "\ufffd\ufffd" ∧ showChunk [0xc3, 0xa9] = "é" := by
  decide +kernel

end Compiler
end RefSync
