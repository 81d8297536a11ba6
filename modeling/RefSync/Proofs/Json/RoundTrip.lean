/-
Writing a clean value and reading it gives the value back. The reader is followed along the
written text; its fuel is at least the length of what is left to read.
-/

import RefSync.Json.Printer
import RefSync.Proofs.Json.Clean
import RefSync.Proofs.Json.Number
import RefSync.Text.Newline

namespace RefSync.Json

open Reader

/-! ### Texts -/

private theorem hexDigits_control : ∀ code < 32,
    hexDigits 4 code = ['0', '0', Nat.digitChar (code / 16), Nat.digitChar (code % 16)]
      ∧ hexValue? (Nat.digitChar (code / 16)) = some (code / 16)
      ∧ hexValue? (Nat.digitChar (code % 16)) = some (code % 16) := by
  decide +kernel

private theorem codeUnit_control {code : Nat} (control : code < 32) (next : Char)
    (rest : List Char) :
    codeUnit? (hexDigits 4 code ++ next :: rest) = some (code, next :: rest) := by
  obtain ⟨spelled, high, low⟩ := hexDigits_control code control
  have zero : hexValue? '0' = some 0 := by decide
  rw [spelled]
  change (do
    let a ← hexValue? '0'
    let b ← hexValue? '0'
    let c ← hexValue? (Nat.digitChar (code / 16))
    let d ← hexValue? (Nat.digitChar (code % 16))
    some (((a * 16 + b) * 16 + c) * 16 + d, next :: rest)) = _
  rw [zero, high, low]
  change some (((0 * 16 + 0) * 16 + code / 16) * 16 + code % 16, next :: rest) = _
  rw [show ((0 * 16 + 0) * 16 + code / 16) * 16 + code % 16 = code by omega]

/-- One more character in front of what was read. -/
private def prepend (char : Char) (read : List Char × List Char) : List Char × List Char :=
  (char :: read.1, read.2)

private theorem string_plain {opened fuel : Nat} {char : Char} (rest : List Char)
    (noQuote : char ≠ '"') (noBackslash : char ≠ '\\') (printable : ¬char.toNat < 32) :
    string opened (fuel + 1) (char :: rest) = (string opened fuel rest).map (prepend char) := by
  rw [string.eq_def]
  dsimp only
  rw [beq_false_of_ne noQuote, beq_false_of_ne noBackslash, if_neg (by decide),
    if_neg (by decide), if_neg printable]
  cases string opened fuel rest <;> rfl

private theorem string_simple {opened fuel : Nat} {letter char : Char} (rest : List Char)
    (noUnicode : letter ≠ 'u') (means : simpleEscape? letter = some char) :
    string opened (fuel + 1) ('\\' :: letter :: rest)
      = (string opened fuel rest).map (prepend char) := by
  rw [string, if_neg (by decide), if_pos (by decide), means]
  · cases string opened fuel rest <;> rfl
  · exact noUnicode

private theorem string_control {opened fuel : Nat} {char : Char} (control : char.toNat < 32)
    (next : Char) (rest : List Char) :
    string opened (fuel + 1) ('\\' :: 'u' :: (hexDigits 4 char.toNat ++ next :: rest))
      = (string opened fuel (next :: rest)).map (prepend char) := by
  have notHigh : isHighSurrogate char.toNat = false := by
    rw [isHighSurrogate, Bool.and_eq_false_iff]
    left
    exact decide_eq_false (by omega)
  have notLow : isLowSurrogate char.toNat = false := by
    rw [isLowSurrogate, Bool.and_eq_false_iff]
    left
    exact decide_eq_false (by omega)
  have same : unitChar char.toNat = char := by
    rw [unitChar, notHigh, notLow]
    exact Char.ofNat_toNat char
  have single : (string opened fuel (next :: rest) >>= fun read =>
      Except.ok (unitChar char.toNat :: read.1, read.2))
        = (string opened fuel (next :: rest)).map (prepend char) := by
    rw [same]
    cases string opened fuel (next :: rest) <;> rfl
  rw [string, if_neg (by decide), if_pos (by decide)]
  dsimp only
  rw [codeUnit_control control]
  dsimp only
  split
  · split
    · rw [notHigh, Bool.false_and, if_neg (by decide)]
      exact single
    · exact single
  · exact single

private theorem string_escape {opened fuel : Nat} (char next : Char) (rest : List Char) :
    string opened (fuel + 1) (escapeChar char ++ next :: rest)
      = (string opened fuel (next :: rest)).map (prepend char) := by
  unfold escapeChar
  split
  · exact string_simple _ (by decide) rfl
  · exact string_simple _ (by decide) rfl
  · exact string_simple _ (by decide) rfl
  · exact string_simple _ (by decide) rfl
  · exact string_simple _ (by decide) rfl
  · exact string_simple _ (by decide) rfl
  · exact string_simple _ (by decide) rfl
  · rename_i noQuote noBackslash _ _ _ _ _
    split
    · rename_i control
      exact string_control control next rest
    · rename_i printable
      exact string_plain _ noQuote noBackslash printable

private theorem string_escaped {opened : Nat} (chars rest : List Char) {fuel : Nat}
    (enough : chars.length < fuel) :
    string opened fuel (chars.flatMap escapeChar ++ '"' :: rest) = .ok (chars, rest) := by
  induction chars generalizing fuel with
  | nil =>
      obtain ⟨more, rfl⟩ := Nat.exists_eq_add_of_lt enough
      rfl
  | cons char others ih =>
      obtain ⟨more, rfl⟩ : ∃ more, fuel = more + 1 := ⟨fuel - 1, by omega⟩
      have left := ih (show others.length < more by rw [List.length_cons] at enough; omega)
      rw [List.flatMap_cons, List.append_assoc]
      cases spelled : others.flatMap escapeChar ++ '"' :: rest with
      | nil => exact absurd spelled (by simp)
      | cons next after =>
          rw [string_escape, ← spelled, left]
          rfl

private theorem length_escaped (chars : List Char) :
    chars.length ≤ (chars.flatMap escapeChar).length := by
  induction chars with
  | nil => exact Nat.le_refl _
  | cons char others ih =>
      have one : 1 ≤ (escapeChar char).length := by
        unfold escapeChar
        split <;> try exact Nat.le_of_ble_eq_true rfl
        split
        · exact Nat.le_add_left 1 _
        · exact Nat.le_refl 1
      rw [List.flatMap_cons, List.length_append, List.length_cons]
      omega

/-- A quoted text is read back, with as much fuel as there are characters. -/
private theorem string_quote (text : String) (rest : List Char) :
    string ('"' :: (text.toList.flatMap escapeChar ++ '"' :: rest)).length
        ('"' :: (text.toList.flatMap escapeChar ++ '"' :: rest)).length
        (text.toList.flatMap escapeChar ++ '"' :: rest)
      = .ok (text.toList, rest) := by
  refine string_escaped text.toList rest ?_
  have length := length_escaped text.toList
  rw [List.length_cons, List.length_append, List.length_cons]
  omega

private theorem quote_append (text : String) (rest : List Char) :
    quote text ++ rest = '"' :: (text.toList.flatMap escapeChar ++ '"' :: rest) := by
  rw [quote, List.cons_append, List.append_assoc, List.singleton_append]

/-! ### Space -/

private theorem skipSpace_newline (level : Nat) (rest : List Char) :
    skipSpace (newline level ++ rest) = skipSpace rest := by
  have spaces : ∀ char ∈ newline level, Reader.isSpace char = true := by
    intro char member
    rcases List.mem_cons.mp member with rfl | space
    · decide
    · rw [(List.mem_replicate.mp space).2]
      decide
  exact List.dropWhile_append_of_pos spaces

private theorem skipSpace_of_head {char : Char} (rest : List Char) (filled : Reader.isSpace char = false) :
    skipSpace (char :: rest) = char :: rest := by
  rw [skipSpace, List.dropWhile_cons_of_neg (by rw [filled]; decide)]

/-! ### Values -/

/-- Whether a value is read back wherever it stands. -/
private def Reads (value : Json) : Prop :=
  ∀ level fuel rest, Delimits rest → (value.render level).length ≤ fuel →
    Reader.value fuel (value.render level ++ rest) = .ok (value, rest)

/-- What the text of a value starts with. -/
private def Opens (text : List Char) : Prop :=
  ∃ char rest, text = char :: rest ∧ Reader.isSpace char = false ∧ char ≠ ']' ∧ char ≠ '\x7d'
    ∧ char ≠ '\ufeff'

private theorem Opens.append {text : List Char} (opens : Opens text) (rest : List Char) :
    Opens (text ++ rest) := by
  obtain ⟨char, others, rfl, filled, closes⟩ := opens
  exact ⟨char, others ++ rest, rfl, filled, closes⟩

/-- A word or a number is read by the last case. -/
private theorem value_of_scalar {fuel : Nat} {text rest : List Char} {value : Json}
    (found : scalar text = .ok (value, rest)) :
    Reader.value (fuel + 1) text = .ok (value, rest) := by
  unfold Reader.value
  split
  · cases found
  · cases found
  · cases found
  · exact found

private theorem reads_scalar {value : Json} (leaf : ∀ level, value.render level = scalarText value)
    (some : 0 < (scalarText value).length)
    (found : ∀ rest, Delimits rest → scalar (scalarText value ++ rest) = .ok (value, rest)) :
    Reads value := by
  intro level fuel rest ends enough
  rw [leaf] at enough ⊢
  obtain ⟨more, rfl⟩ : ∃ more, fuel = more + 1 := ⟨fuel - 1, by omega⟩
  exact value_of_scalar (found rest ends)

private theorem delimits_newline (level : Nat) (rest : List Char) :
    Delimits (newline level ++ rest) :=
  Or.inr rfl

/-- What comes after an item of an array, or a member of an object. -/
private theorem delimits_items (level closing : Nat) (items : List Json) (rest : List Char) :
    Delimits (renderItems level items ++ (newline closing ++ rest)) := by
  cases items with
  | nil => exact delimits_newline closing rest
  | cons _ _ => exact Or.inl rfl

private theorem delimits_members (level closing : Nat) (members : Document) (rest : List Char) :
    Delimits (renderMembers level members ++ (newline closing ++ rest)) := by
  cases members with
  | nil => exact delimits_newline closing rest
  | cons _ _ => exact Or.inl rfl

/-- One item is read, and what comes after it decides. -/
private theorem items_step {level fuel : Nat} {item : Json} (reads : Reads item) {rest : List Char}
    (ends : Delimits rest) (enough : (item.render level).length ≤ fuel) :
    Reader.items (fuel + 1) (item.render level ++ rest)
      = match skipSpace rest with
        | ']' :: rest => .ok ([item], rest)
        | ',' :: rest =>
            match Reader.items fuel (skipSpace rest) with
            | .ok (items, rest) => .ok (item :: items, rest)
            | .error failure => .error failure
        | rest => stop .comma rest := by
  rw [Reader.items, reads level fuel rest ends enough]
  change (match skipSpace rest with
    | ']' :: rest => Except.ok ([item], rest)
    | ',' :: rest => Reader.items fuel (skipSpace rest) >>= fun read =>
        Except.ok (item :: read.1, read.2)
    | rest => stop .comma rest) = _
  split
  · rfl
  · rename_i more _
    cases Reader.items fuel (skipSpace more) <;> rfl
  · rfl

/-- One member is read, and what comes after it decides. -/
private theorem members_step {level fuel : Nat} {before : Document} {key : String} {value : Json}
    (reads : Reads value) (opens : Opens (value.render level)) {rest : List Char}
    (ends : Delimits rest) (enough : (value.render level).length ≤ fuel) :
    Reader.members (fuel + 1) before
        (quote key ++ (':' :: ' ' :: (value.render level ++ rest)))
      = match skipSpace rest with
        | '\x7d' :: rest => .ok (before.set key value, rest)
        | ',' :: rest => Reader.members fuel (before.set key value) (skipSpace rest)
        | rest => stop .comma rest := by
  obtain ⟨char, after, spelled, filled, _, _⟩ := opens
  have goesOn : skipSpace (' ' :: (value.render level ++ rest)) = value.render level ++ rest := by
    rw [skipSpace, List.dropWhile_cons_of_pos (by decide), spelled, List.cons_append,
      List.dropWhile_cons_of_neg (by rw [filled]; decide)]
  rw [quote_append, Reader.members, string_quote]
  dsimp only [Bind.bind, Except.bind]
  rw [skipSpace_of_head _ (by decide), String.ofList_toList]
  split
  · rename_i found
    obtain rfl := (List.cons.inj found).2
    have read : Reader.value fuel (skipSpace (' ' :: (value.render level ++ rest)))
        = .ok (value, rest) := goesOn.symm ▸ reads level fuel rest ends enough
    exact read ▸ rfl
  · rename_i noColon
    exact absurd rfl (noColon _)

/-- The space before what closes an array or an object is skipped. -/
private theorem skipSpace_closing (level : Nat) {char : Char} (rest : List Char)
    (filled : Reader.isSpace char = false) :
    skipSpace (newline level ++ char :: rest) = char :: rest := by
  rw [skipSpace_newline, skipSpace_of_head rest filled]

private theorem skipSpace_opening (level : Nat) {text : List Char} (rest : List Char)
    (opens : Opens text) : skipSpace (newline level ++ (text ++ rest)) = text ++ rest := by
  obtain ⟨char, after, rfl, filled, _, _⟩ := opens
  rw [List.cons_append, skipSpace_closing level _ filled]

private theorem items_render {level closing : Nat} {first : Json} {others : List Json}
    (each : ∀ item ∈ first :: others, Reads item ∧ ∀ level, Opens (item.render level))
    {fuel : Nat} (rest : List Char)
    (enough : (first.render level).length + (renderItems level others).length < fuel) :
    Reader.items fuel (first.render level
        ++ (renderItems level others ++ (newline closing ++ ']' :: rest)))
      = .ok (first :: others, rest) := by
  induction others generalizing first fuel with
  | nil =>
      obtain ⟨more, rfl⟩ : ∃ more, fuel = more + 1 := ⟨fuel - 1, by omega⟩
      rw [items_step (each first List.mem_cons_self).1 (delimits_items level closing [] _)
        (by omega), renderItems, List.nil_append, skipSpace_closing closing rest (by decide)]
      rfl
  | cons second others ih =>
      obtain ⟨more, rfl⟩ : ∃ more, fuel = more + 1 := ⟨fuel - 1, by omega⟩
      have opens := (each second (List.mem_cons_of_mem first List.mem_cons_self)).2 level
      have spelled : renderItems level (second :: others) ++ (newline closing ++ ']' :: rest)
          = ',' :: (newline level ++ (second.render level
            ++ (renderItems level others ++ (newline closing ++ ']' :: rest)))) := by
        rw [renderItems, List.cons_append, List.append_assoc, List.append_assoc]
      have shorter : (second.render level).length + (renderItems level others).length < more := by
        rw [renderItems, List.length_cons, List.length_append, List.length_append] at enough
        omega
      have readsOthers :=
        ih (fun item member => each item (List.mem_cons_of_mem first member)) shorter
      rw [items_step (each first List.mem_cons_self).1 (delimits_items level closing _ _)
        (by omega), spelled, skipSpace_of_head _ (by decide)]
      change (match Reader.items more (skipSpace (newline level ++ (second.render level
          ++ (renderItems level others ++ (newline closing ++ ']' :: rest))))) with
        | .ok (items, rest) => Except.ok (first :: items, rest)
        | .error failure => .error failure) = _
      rw [skipSpace_opening level _ opens, readsOthers]

private theorem members_render {level closing : Nat} {key : String} {value : Json}
    {others before : Document}
    (each : ∀ entry ∈ (key, value) :: others,
      Reads entry.2 ∧ ∀ level, Opens (entry.2.render level))
    (distinct : (Table.keys (before ++ (key, value) :: others)).Nodup)
    {fuel : Nat} (rest : List Char)
    (enough : (value.render level).length + (renderMembers level others).length < fuel) :
    Reader.members fuel before (quote key ++ (':' :: ' ' :: (value.render level
        ++ (renderMembers level others ++ (newline closing ++ '\x7d' :: rest)))))
      = .ok (before ++ (key, value) :: others, rest) := by
  have absent : key ∉ Table.keys before := by
    intro present
    rw [Table.keys, List.map_append, List.map_cons] at distinct
    exact (List.nodup_append.mp distinct).2.2 key present key List.mem_cons_self rfl
  obtain ⟨reads, opens⟩ : Reads value ∧ ∀ level, Opens (value.render level) :=
    each (key, value) List.mem_cons_self
  induction others generalizing key value before fuel with
  | nil =>
      obtain ⟨more, rfl⟩ : ∃ more, fuel = more + 1 := ⟨fuel - 1, by omega⟩
      rw [members_step reads (opens level) (delimits_members level closing [] _) (by omega),
        renderMembers, List.nil_append, skipSpace_closing closing rest (by decide),
        Table.set_of_not_mem absent]
      rfl
  | cons entry others ih =>
      obtain ⟨nextKey, next⟩ := entry
      obtain ⟨more, rfl⟩ : ∃ more, fuel = more + 1 := ⟨fuel - 1, by omega⟩
      have nextMember : (nextKey, next) ∈ (key, value) :: (nextKey, next) :: others :=
        List.mem_cons_of_mem _ List.mem_cons_self
      have spelled : renderMembers level ((nextKey, next) :: others)
            ++ (newline closing ++ '\x7d' :: rest)
          = ',' :: (newline level ++ (quote nextKey ++ (':' :: ' ' :: (next.render level
            ++ (renderMembers level others ++ (newline closing ++ '\x7d' :: rest)))))) := by
        rw [renderMembers]
        simp only [List.cons_append, List.append_assoc, List.nil_append]
      have quoted : Opens (quote nextKey) := ⟨'"', _, rfl, by decide, by decide, by decide⟩
      have shorter : (next.render level).length + (renderMembers level others).length < more := by
        rw [renderMembers] at enough
        simp only [List.length_cons, List.length_append] at enough
        omega
      have moved : before ++ (key, value) :: (nextKey, next) :: others
          = before ++ [(key, value)] ++ (nextKey, next) :: others := by
        rw [List.append_assoc, List.singleton_append]
      rw [moved] at distinct
      have absentNext : nextKey ∉ Table.keys (before ++ [(key, value)]) := by
        intro present
        rw [Table.keys, List.map_append, List.map_cons] at distinct
        exact (List.nodup_append.mp distinct).2.2 nextKey present nextKey List.mem_cons_self rfl
      have readsOthers := ih (fun entry member => each entry (List.mem_cons_of_mem _ member))
        distinct shorter absentNext (each _ nextMember).1 (each _ nextMember).2
      rw [members_step reads (opens level) (delimits_members level closing _ _) (by omega),
        spelled, skipSpace_of_head _ (by decide)]
      change Reader.members more (before.set key value) (skipSpace (newline level
        ++ (quote nextKey ++ (':' :: ' ' :: (next.render level
          ++ (renderMembers level others ++ (newline closing ++ '\x7d' :: rest))))))) = _
      rw [skipSpace_opening level _ quoted, Table.set_of_not_mem absent, readsOthers, moved]

private theorem reads_array {first : Json} {others : List Json}
    (each : ∀ item ∈ first :: others, Reads item ∧ ∀ level, Opens (item.render level)) :
    Reads (.arr (first :: others)) := by
  intro level fuel rest ends enough
  have spelled : render level (.arr (first :: others)) ++ rest
      = '[' :: (newline (level + 1) ++ (first.render (level + 1)
        ++ (renderItems (level + 1) others ++ (newline level ++ ']' :: rest)))) := by
    rw [render]
    simp only [List.cons_append, List.append_assoc, List.nil_append]
  have shorter : (first.render (level + 1)).length + (renderItems (level + 1) others).length + 1
      < fuel := by
    rw [render] at enough
    simp only [List.length_cons, List.length_append] at enough
    omega
  obtain ⟨more, rfl⟩ : ∃ more, fuel = more + 1 := ⟨fuel - 1, by omega⟩
  have opens := (each first List.mem_cons_self).2 (level + 1)
  have readsItems : Reader.items more (first.render (level + 1)
      ++ (renderItems (level + 1) others ++ (newline level ++ ']' :: rest)))
        = .ok (first :: others, rest) := items_render each rest (by omega)
  rw [spelled, Reader.value, skipSpace_opening (level + 1) _ opens]
  obtain ⟨char, after, start, _, noBracket, _⟩ := opens
  rw [start, List.cons_append] at readsItems ⊢
  split
  · rename_i same
    exact absurd (List.cons.inj same).1 noBracket
  · rw [readsItems]
    rfl

private theorem reads_object {key : String} {value : Json} {others : Document}
    (distinct : (Table.keys ((key, value) :: others)).Nodup)
    (each : ∀ entry ∈ (key, value) :: others,
      Reads entry.2 ∧ ∀ level, Opens (entry.2.render level)) :
    Reads (.obj ((key, value) :: others)) := by
  intro level fuel rest ends enough
  have spelled : render level (.obj ((key, value) :: others)) ++ rest
      = '\x7b' :: (newline (level + 1) ++ (quote key ++ (':' :: ' ' :: (value.render (level + 1)
        ++ (renderMembers (level + 1) others ++ (newline level ++ '\x7d' :: rest)))))) := by
    rw [render]
    simp only [List.cons_append, List.append_assoc, List.nil_append]
  have shorter : (value.render (level + 1)).length + (renderMembers (level + 1) others).length + 1
      < fuel := by
    rw [render] at enough
    simp only [List.length_cons, List.length_append] at enough
    omega
  obtain ⟨more, rfl⟩ : ∃ more, fuel = more + 1 := ⟨fuel - 1, by omega⟩
  have quoted : Opens (quote key) := ⟨'"', _, rfl, by decide, by decide, by decide⟩
  have readsMembers : Reader.members more [] (quote key ++ (':' :: ' ' :: (value.render (level + 1)
      ++ (renderMembers (level + 1) others ++ (newline level ++ '\x7d' :: rest)))))
        = .ok ((key, value) :: others, rest) := members_render each distinct rest (by omega)
  rw [spelled, Reader.value, skipSpace_opening (level + 1) _ quoted]
  rw [quote_append] at readsMembers ⊢
  split
  · rename_i same
    cases (List.cons.inj same).1
  · rw [readsMembers]
    rfl

/-- What a number is written with: a digit, a sign or a letter. -/
private theorem opens_of_scalar {text rest : List Char} {value : Json} {char : Char}
    {others : List Char} (spelled : text = char :: others)
    (found : scalar text = .ok (value, rest)) : Opens text := by
  have other {letter : Char} (word : scalar (letter :: others) = stop .value (letter :: others)) :
      char ≠ letter := by
    rintro rfl
    rw [spelled, word] at found
    cases found
  refine ⟨char, others, spelled, ?_, other rfl, other rfl, other rfl⟩
  have space : char ≠ ' ' := other rfl
  have tab : char ≠ '\t' := other rfl
  have line : char ≠ '\n' := other rfl
  have return' : char ≠ '\r' := other rfl
  rw [Reader.isSpace, beq_false_of_ne space, beq_false_of_ne tab, beq_false_of_ne line,
    beq_false_of_ne return']
  rfl

/-- A scalar that is read back is written with something. -/
private theorem reads_number {value : Json} (leaf : ∀ level, value.render level = scalarText value)
    (found : ∀ rest, Delimits rest → scalar (scalarText value ++ rest) = .ok (value, rest)) :
    Reads value ∧ ∀ level, Opens (value.render level) := by
  have line : Delimits ['\n'] := Or.inr rfl
  have reads := found ['\n'] line
  cases spelled : scalarText value with
  | nil =>
      rw [spelled] at reads
      cases reads
  | cons char others =>
      refine ⟨reads_scalar leaf (by rw [spelled]; exact Nat.succ_pos _) found, fun level => ?_⟩
      rw [spelled] at reads
      obtain ⟨_, _, same, filled, noBracket, noBrace⟩ := opens_of_scalar rfl reads
      obtain ⟨rfl, _⟩ := List.cons.inj same
      rw [leaf, spelled]
      exact ⟨char, others, rfl, filled, noBracket, noBrace⟩

private theorem reads_text (text : String) : Reads (.str text) := by
  intro level fuel rest _ enough
  have spelled : render level (.str text) = quote text := rfl
  rw [spelled] at enough ⊢
  obtain ⟨more, rfl⟩ : ∃ more, fuel = more + 1 := by
    rw [quote, List.length_cons] at enough
    exact ⟨fuel - 1, by omega⟩
  rw [quote_append, Reader.value, string_quote]
  change Except.ok (Json.str (String.ofList text.toList), rest) = _
  rw [String.ofList_toList]

/-- Every clean value is read back. -/
private theorem reads_of_clean {value : Json} (clean : value.Clean) :
    Reads value ∧ ∀ level, Opens (value.render level) := by
  induction clean with
  | null => exact reads_number (fun _ => rfl) fun _ _ => rfl
  | bool value =>
      cases value with
      | true => exact reads_number (fun _ => rfl) fun _ _ => rfl
      | false => exact reads_number (fun _ => rfl) fun _ _ => rfl
  | int value => exact reads_number (fun _ => rfl) fun _ ends => scalar_int value ends
  | real value canonical =>
      exact reads_number (fun _ => rfl) fun _ ends => scalar_real canonical ends
  | str value =>
      exact ⟨reads_text value, fun _ => ⟨'"', _, rfl, by decide, by decide, by decide⟩⟩
  | arr items each ih =>
      cases items with
      | nil =>
          refine ⟨fun level fuel rest _ enough => ?_, fun _ => ?_⟩
          · obtain ⟨more, rfl⟩ : ∃ more, fuel = more + 1 :=
              ⟨fuel - 1, by rw [render, List.length_cons] at enough; omega⟩
            rfl
          · exact ⟨'[', _, rfl, by decide, by decide, by decide⟩
      | cons first others =>
          exact ⟨reads_array ih, fun _ => ⟨'[', _, rfl, by decide, by decide, by decide⟩⟩
  | obj members distinct each ih =>
      cases members with
      | nil =>
          refine ⟨fun level fuel rest _ enough => ?_, fun _ => ?_⟩
          · obtain ⟨more, rfl⟩ : ∃ more, fuel = more + 1 :=
              ⟨fuel - 1, by rw [render, List.length_cons] at enough; omega⟩
            rfl
          · exact ⟨'\x7b', _, rfl, by decide, by decide, by decide⟩
      | cons entry others =>
          exact ⟨reads_object distinct ih, fun _ => ⟨'\x7b', _, rfl, by decide, by decide, by decide⟩⟩

/-- The contents of a clean value are read as that value. -/
theorem readChars_contents {value : Json} (clean : value.Clean) :
    readChars value.contents = .ok value := by
  obtain ⟨reads, opens⟩ := reads_of_clean clean
  obtain ⟨char, others, spelled, filled, _, _, noMark⟩ := opens 0
  have line : Delimits ['\n'] := Or.inr rfl
  have enough : (render 0 value).length ≤ 2 * value.contents.length + 2 := by
    rw [contents, List.length_append]
    omega
  have start : skipSpace value.contents = value.contents := by
    rw [contents, spelled, List.cons_append, skipSpace_of_head _ filled]
  have whole : Reader.whole value.contents = .ok value := by
    rw [Reader.whole]
    · rw [start]
      change (Reader.value (2 * value.contents.length + 2) (render 0 value ++ ['\n']) >>= _) = _
      rw [reads 0 _ ['\n'] line enough]
      rfl
    · intro rest same
      rw [contents, spelled, List.cons_append] at same
      exact noMark (List.cons.inj same).1
  rw [readChars, whole]

/-! ### Line ends -/

private theorem escapeChar_no_return (char : Char) : '\r' ∉ escapeChar char := by
  unfold escapeChar
  split
  · decide
  · decide
  · decide
  · decide
  · decide
  · decide
  · decide
  · rename_i notReturn _ _ _
    split
    · rename_i control
      have each : ∀ code < 32, '\r' ∉ '\\' :: 'u' :: hexDigits 4 code := by decide +kernel
      exact each char.toNat control
    · intro member
      exact notReturn (List.mem_singleton.mp member).symm

private theorem toDigits_no_return (number : Nat) : '\r' ∉ Nat.toDigits 10 number := by
  intro member
  cases isDigit_toDigits number '\r' member

private theorem decimal_no_return (number : Nat) (power : Int) :
    '\r' ∉ (Binary64.documentLayout.decimal number power).toList := by
  have digits := toDigits_no_return number
  have zeros (count : Nat) : '\r' ∉ List.replicate count '0' := by
    intro member
    cases (List.mem_replicate.mp member).2
  have front (count : Nat) : '\r' ∉ (Nat.toDigits 10 number).take count :=
    fun member => digits (List.mem_of_mem_take member)
  have back (count : Nat) : '\r' ∉ (Nat.toDigits 10 number).drop count :=
    fun member => digits (List.mem_of_mem_drop member)
  have magnitude (size : Nat) : '\r' ∉ (toString size).toList := by
    have spelled : (toString size).toList = Nat.toDigits 10 size := Nat.toList_repr
    rw [spelled]
    exact toDigits_no_return size
  have marks : '\r' ∉ "0.".toList ∧ '\r' ∉ ".".toList ∧ '\r' ∉ ".0".toList ∧ '\r' ∉ "".toList
      ∧ '\r' ∉ "-".toList ∧ '\r' ∉ "+".toList ∧ '\r' ∉ Binary64.documentLayout.mark.toList := by
    decide
  obtain ⟨zeroPoint, point, pointZero, nothing, minus, plus, mark⟩ := marks
  unfold Binary64.Layout.decimal
  dsimp only
  split
  · split
    · simp only [String.toList_append, String.toList_ofList, Binary64.zeros, List.mem_append,
        not_or]
      exact ⟨⟨zeroPoint, zeros _⟩, digits⟩
    · split
      · simp only [String.toList_append, String.toList_ofList, List.mem_append, not_or]
        exact ⟨⟨front _, point⟩, back _⟩
      · simp only [String.toList_append, String.toList_ofList, Binary64.zeros, List.mem_append,
          not_or]
        exact ⟨⟨digits, zeros _⟩, pointZero⟩
  · simp only [String.toList_append, String.toList_ofList, Binary64.zeros, List.mem_append,
      not_or]
    refine ⟨⟨⟨⟨⟨front 1, ?_⟩, mark⟩, ?_⟩, zeros _⟩, magnitude _⟩
    · split
      · exact nothing
      · simp only [String.toList_append, String.toList_ofList, List.mem_append, not_or]
        exact ⟨point, back 1⟩
    · split
      · exact minus
      · exact plus

private theorem scalarText_no_return (value : Json) : '\r' ∉ scalarText value := by
  have quoted (text : String) : '\r' ∉ quote text := by
    intro member
    rcases List.mem_cons.mp member with same | inside
    · cases same
    · rcases List.mem_append.mp inside with escaped | last
      · obtain ⟨char, _, inChar⟩ := List.mem_flatMap.mp escaped
        exact escapeChar_no_return char inChar
      · cases List.mem_singleton.mp last
  cases value with
  | null => decide
  | bool value => cases value <;> decide
  | int value =>
      cases value with
      | ofNat number =>
          have spelled : scalarText (.int (.ofNat number)) = Nat.toDigits 10 number :=
            Nat.toList_repr
          rw [spelled]
          exact toDigits_no_return number
      | negSucc number =>
          have spelled : scalarText (.int (.negSucc number)) = '-' :: Nat.toDigits 10 (number + 1) := by
            have text : toString (Int.negSucc number) = "-" ++ toString (number + 1) := rfl
            have digits : (toString (number + 1)).toList = Nat.toDigits 10 (number + 1) :=
              Nat.toList_repr
            rw [scalarText, text, String.toList_append, digits]
            rfl
          rw [spelled, List.mem_cons, not_or]
          exact ⟨by decide, toDigits_no_return (number + 1)⟩
  | real value =>
      cases value with
      | nan => decide
      | infinite negative => cases negative <;> decide
      | finite negative significand exponent =>
          rw [scalarText, Binary64.Layout.text, String.toList_append, List.mem_append, not_or]
          constructor
          · cases negative <;> decide
          · split
            · decide
            · exact decimal_no_return _ _
  | str value => exact quoted value
  | arr items => exact List.not_mem_nil
  | obj members => exact List.not_mem_nil

private theorem newline_no_return (level : Nat) : '\r' ∉ newline level := by
  intro member
  rcases List.mem_cons.mp member with same | space
  · cases same
  · cases (List.mem_replicate.mp space).2

private theorem render_no_return {value : Json} (clean : value.Clean) (level : Nat) :
    '\r' ∉ value.render level := by
  have quoted (text : String) : '\r' ∉ quote text := scalarText_no_return (.str text)
  induction clean generalizing level with
  | null => exact scalarText_no_return .null
  | bool value => exact scalarText_no_return (.bool value)
  | int value => exact scalarText_no_return (.int value)
  | real value _ => exact scalarText_no_return (.real value)
  | str value => exact scalarText_no_return (.str value)
  | arr items _ each =>
      have others : ∀ items : List Json, (∀ item ∈ items, ∀ level, '\r' ∉ item.render level) →
          '\r' ∉ renderItems (level + 1) items := by
        intro items
        induction items with
        | nil => exact fun _ => List.not_mem_nil
        | cons item rest ih =>
            intro each
            have restNone := ih fun other member => each other (List.mem_cons_of_mem item member)
            have itemNone := each item List.mem_cons_self (level + 1)
            rw [renderItems]
            simp only [List.mem_cons, List.mem_append, not_or]
            exact ⟨by decide, ⟨newline_no_return _, itemNone⟩, restNone⟩
      cases items with
      | nil => exact (by decide : '\r' ∉ ['[', ']'])
      | cons first rest =>
          have restNone := others rest fun other member => each other (List.mem_cons_of_mem _ member)
          have firstNone := each first List.mem_cons_self (level + 1)
          rw [render]
          simp only [List.mem_cons, List.mem_append, List.not_mem_nil, not_or, or_false]
          exact ⟨by decide, ⟨⟨⟨newline_no_return _, firstNone⟩, restNone⟩, newline_no_return _⟩,
            by decide⟩
  | obj members _ _ each =>
      have others : ∀ members : Document,
          (∀ entry ∈ members, ∀ level, '\r' ∉ entry.2.render level) →
          '\r' ∉ renderMembers (level + 1) members := by
        intro members
        induction members with
        | nil => exact fun _ => List.not_mem_nil
        | cons entry rest ih =>
            intro each
            obtain ⟨key, value⟩ := entry
            have restNone := ih fun other member => each other (List.mem_cons_of_mem _ member)
            have valueNone := each _ List.mem_cons_self (level + 1)
            rw [renderMembers]
            simp only [List.mem_cons, List.mem_append, List.not_mem_nil, not_or, or_false]
            exact ⟨by decide, ⟨⟨⟨newline_no_return _, quoted key⟩, by decide, by decide⟩, valueNone⟩,
              restNone⟩
      cases members with
      | nil => exact (by decide : '\r' ∉ ['\x7b', '\x7d'])
      | cons entry rest =>
          obtain ⟨key, value⟩ := entry
          have restNone := others rest fun other member => each other (List.mem_cons_of_mem _ member)
          have valueNone := each _ List.mem_cons_self (level + 1)
          rw [render]
          simp only [List.mem_cons, List.mem_append, List.not_mem_nil, not_or, or_false]
          exact ⟨by decide, ⟨⟨⟨⟨⟨newline_no_return _, quoted key⟩, by decide, by decide⟩, valueNone⟩,
            restNone⟩, newline_no_return _⟩, by decide⟩

/-- Nothing of a written document is taken for another line end. -/
theorem normalizeNewlines_contents {value : Json} (clean : value.Clean) :
    normalizeNewlines value.contents = value.contents := by
  refine normalizeNewlines_of_not_mem fun member => ?_
  rcases List.mem_append.mp member with inside | last
  · exact render_no_return clean 0 inside
  · cases List.mem_singleton.mp last

/-! ### Stored documents -/

/-- A stored document is read as itself, members in their order. So no two documents are stored
alike, and what is read of a stored one is stored as before. -/
theorem stored_document_survives (value : Json) (clean : value.Clean) :
    readChars (normalizeNewlines value.contents) = .ok value
      ∧ (∀ other : Json, other.Clean → other.contents = value.contents → other = value)
      ∧ ∀ found, readChars (normalizeNewlines value.contents) = .ok found →
        found.Clean ∧ found.contents = value.contents := by
  have reads : readChars (normalizeNewlines value.contents) = .ok value := by
    rw [normalizeNewlines_contents clean, readChars_contents clean]
  refine ⟨reads, fun other otherClean stored => ?_, fun found foundReads => ?_⟩
  · have readsOther := readChars_contents otherClean
    rw [stored, readChars_contents clean] at readsOther
    cases readsOther
    rfl
  · rw [reads] at foundReads
    cases foundReads
    exact ⟨clean, rfl⟩

/-- Line ends, quotes and control characters in keys and texts, a negative zero, the least double,
an integer beyond all machine words, empty containers, and members out of order. -/
theorem nested_document_survives :
    let document : Json := .obj [("z\r\n\"", .arr [.real (.finite true 0 (-1074)),
        .real (.finite false 1 (-1074)), .int (-123456789012345678901234567890), .str "\\\x00\x7f😀"]),
      ("", .obj [("null", .null), ("a", .arr []), ("A", .obj [])]), ("b", .bool false)]
    document.Clean ∧ readChars (normalizeNewlines document.contents) = .ok document := by
  intro document
  have clean : document.Clean := by
    refine .obj _ (by decide) fun entry member => ?_
    simp only [List.mem_cons, List.not_mem_nil, or_false] at member
    rcases member with rfl | rfl | rfl
    · refine .arr _ fun item inside => ?_
      simp only [List.mem_cons, List.not_mem_nil, or_false] at inside
      rcases inside with rfl | rfl | rfl | rfl
      · exact .real _ (by unfold Binary64.IsCanonical; decide)
      · exact .real _ (by unfold Binary64.IsCanonical; decide)
      · exact .int _
      · exact .str _
    · refine .obj _ (by decide) fun inner inside => ?_
      simp only [List.mem_cons, List.not_mem_nil, or_false] at inside
      rcases inside with rfl | rfl | rfl
      · exact .null
      · exact .arr [] nofun
      · exact .obj [] List.nodup_nil nofun
    · exact .bool false
  exact ⟨clean, (stored_document_survives document clean).1⟩

end RefSync.Json
