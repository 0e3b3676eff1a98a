/-
# JSON texts are read back

A layout that puts only blanks between the parts of a text changes nothing for the
reader: whatever value is written, it is read back (`Json.read?_render`).  The induction
is on the value, and what stands behind its text is free but for one thing: it does not
begin with a digit, which would go on with a number (`Json.Ends`).  So no two values
have the same text (`Json.pretty_injective`).

The equations of the reader are stated as rules: what the parts of a text are read as,
and what the whole text is read as then (`Json.Reads`).
-/

import Mathlib.Data.List.Basic
import Labyrinth.Proofs.Json.Reader
import Labyrinth.Proofs.Lines

namespace Labyrinth
namespace Json

variable {α β : Type} {cs cs' s rest rest₁ rest₂ rest₃ blanks : List Char} {c : Char}
  {reading : Option (Parsed α cs)} {a : α}

/-- The reader gives a value and leaves a text. -/
def Reads (reading : Option (Parsed α cs)) (a : α) (rest : List Char) : Prop :=
  ∃ h, reading = some ⟨a, rest, h⟩

/-- What was read is a part of something else. -/
theorem Reads.map (h : Reads reading a rest) (f : α → β) (hle : cs.length ≤ cs'.length) :
    Reads (reading.map (·.map f hle)) (f a) rest := by
  obtain ⟨hlt, rfl⟩ := h
  exact ⟨Nat.lt_of_lt_of_le hlt hle, rfl⟩

/-! ## Marks -/

/-- Blanks before a mark are passed over. -/
theorem reads_readMark (hblanks : ∀ b ∈ blanks, isBlank b = true) (hc : isBlank c = false)
    (rest : List Char) : Reads (readMark (blanks ++ c :: rest)) c rest := by
  induction blanks with
  | nil =>
    rw [List.nil_append, readMark, hc]
    exact ⟨_, rfl⟩
  | cons b blanks ih =>
    rw [List.forall_mem_cons] at hblanks
    rw [List.cons_append, readMark, hblanks.1, if_pos rfl]
    exact (ih hblanks.2).map id _

/-- A mark with nothing before it. -/
theorem reads_readMark_cons (hc : isBlank c = false) (rest : List Char) :
    Reads (readMark (c :: rest)) c rest := by
  rw [readMark, hc]
  exact ⟨_, rfl⟩

/-- A blank is no digit. -/
theorem isDigit_eq_false_of_isBlank {c : Char} (h : isBlank c = true) : c.isDigit = false := by
  simp only [isBlank, Bool.or_eq_true, decide_eq_true_eq] at h
  rcases h with ((rfl | rfl) | rfl) | rfl <;> decide

/-! ## Quoted texts -/

/-- The digits that are written are read. -/
theorem hexDigit?_digitChar {n : Nat} (h : n < 16) : hexDigit? n.digitChar = some n := by
  revert n
  decide

/-- A control character is read back from the digits of its code. -/
theorem charOfDigits?_of_control (h : c.toNat < 0x20) :
    charOfDigits? '0' '0' (Nat.digitChar (c.toNat / 16)) (Nat.digitChar (c.toNat % 16)) =
      some c := by
  have hzero : hexDigit? '0' = some 0 := by decide
  have hcode : ((0 * 16 + 0) * 16 + c.toNat / 16) * 16 + c.toNat % 16 = c.toNat := by omega
  have hvalid : c.toNat.isValidChar := c.valid
  rw [charOfDigits?, hzero, hexDigit?_digitChar (by omega), hexDigit?_digitChar (by omega)]
  simp only [Option.bind_eq_bind, Option.bind_some, hcode]
  rw [if_pos hvalid, Char.ofNat_toNat]

/-- **A character is read back from its escaped form.** -/
theorem reads_readQuoted_escape (h : Reads (readQuoted cs) s rest) (c : Char) :
    Reads (readQuoted (escape c ++ cs)) (c :: s) rest := by
  generalize he : escape c = escaped
  unfold escape at he
  split at he
  -- a character without a short form is escaped if it is a control character
  case h_8 =>
    rename_i hquote hbackslash _ _ _ _ _
    split at he
    · rename_i hcontrol
      subst he
      simp only [List.cons_append, List.nil_append]
      rw [readQuoted, charOfDigits?_of_control hcontrol]
      exact h.map (c :: ·) _
    · rename_i hcontrol
      subst he
      rw [List.singleton_append, readQuoted, if_neg (not_or.2 ⟨hbackslash, hcontrol⟩)]
      · exact h.map (c :: ·) _
      · exact hquote
      · exact fun _ _ _ _ _ hc _ => hbackslash hc
      · exact fun _ _ hc _ => hbackslash hc
  all_goals
    subst he
    exact h.map (_ :: ·) _

/-- A text is read back from between its quotes. -/
theorem reads_readQuoted (s rest : List Char) :
    Reads (readQuoted (s.flatMap escape ++ '"' :: rest)) s rest := by
  induction s with
  | nil => exact ⟨_, rfl⟩
  | cons c s ih =>
    rw [List.flatMap_cons, List.append_assoc]
    exact reads_readQuoted_escape ih c

/-! ## Numbers -/

/-- A text does not begin with a digit, so no number goes on in it. -/
def Ends (rest : List Char) : Prop := ∀ c ∈ rest.head?, c.isDigit = false

/-- What begins with something else than a digit. -/
theorem ends_cons (hc : c.isDigit = false) (rest : List Char) : Ends (c :: rest) := by
  intro d hd
  exact Option.some.inj hd ▸ hc

/-- A natural number is written with at least one digit. -/
theorem exists_repr_eq_cons (n : Nat) : ∃ c ds, n.repr.toList = c :: ds ∧ c.isDigit = true := by
  rw [Nat.toList_repr]
  obtain ⟨c, ds, hds⟩ := List.exists_cons_of_ne_nil (Nat.toDigits_ne_nil : Nat.toDigits 10 n ≠ [])
  have hmem : c ∈ Nat.toDigits 10 n := hds ▸ List.mem_cons_self
  exact ⟨c, ds, hds, Nat.isDigit_of_mem_toDigits (by decide) (by decide) hmem⟩

/-- No zero stands before other digits. -/
theorem toDigits_eq_of_head?_eq {n : Nat} (h : (Nat.toDigits 10 n).head? = some '0') :
    Nat.toDigits 10 n = ['0'] := by
  induction n using Nat.strongRecOn with
  | ind n ih =>
    rw [Nat.toDigits_eq_if (by decide)] at h ⊢
    split
    · rename_i hlt
      rw [if_pos hlt] at h
      exact congrArg (fun c => [c]) (Option.some.inj h)
    · rename_i hle
      rw [if_neg hle, List.head?_append_of_ne_nil _ Nat.toDigits_ne_nil] at h
      have hvalue := Nat.ofDigitChars_ten_toDigits (n := n / 10)
      rw [ih (n / 10) (by omega) h] at hvalue
      have hzero : Nat.ofDigitChars 10 ['0'] 0 = 0 := by decide
      omega

/-- A natural number is read back from its digits. -/
theorem reads_readDigits (n : Nat) (hrest : Ends rest) :
    Reads (readDigits (n.repr.toList ++ rest)) n rest := by
  have hdigit : ∀ c ∈ Nat.toDigits 10 n, c.isDigit = true := fun c hc =>
    Nat.isDigit_of_mem_toDigits (by decide) (by decide) hc
  have htake : (Nat.toDigits 10 n ++ rest).takeWhile Char.isDigit = Nat.toDigits 10 n := by
    rw [List.takeWhile_append_of_pos hdigit]
    cases rest with
    | nil => simp
    | cons c rest => simp [hrest c rfl]
  have hdrop : (Nat.toDigits 10 n ++ rest).dropWhile Char.isDigit = rest := by
    rw [List.dropWhile_append_of_pos hdigit]
    cases rest with
    | nil => rfl
    | cons c rest => simp [hrest c rfl]
  have hzero : ¬((Nat.toDigits 10 n ++ rest).head? = some '0' ∧ Nat.toDigits 10 n ≠ ['0']) := by
    rintro ⟨hhead, hne⟩
    rw [List.head?_append_of_ne_nil _ Nat.toDigits_ne_nil] at hhead
    exact hne (toDigits_eq_of_head?_eq hhead)
  rw [Nat.toList_repr]
  unfold readDigits
  simp only [htake, hdrop, Nat.ofDigitChars_ten_toDigits]
  rw [dif_pos Nat.toDigits_ne_nil, if_neg hzero]
  exact ⟨_, rfl⟩

/-- **A number is read back.** -/
theorem reads_readInt (n : Int) (hrest : Ends rest) :
    Reads (readInt ((toString n).toList ++ rest)) n rest := by
  rw [Int.toString_eq_repr]
  cases n with
  | ofNat n =>
    show Reads (readInt (n.repr.toList ++ rest)) _ _
    have hminus : ∀ cs, n.repr.toList ++ rest = '-' :: cs → False := by
      intro cs hcs
      obtain ⟨c, ds, hds, hc⟩ := exists_repr_eq_cons n
      rw [hds, List.cons_append, List.cons.injEq] at hcs
      exact absurd (hcs.1 ▸ hc) (by decide)
    rw [readInt]
    · exact (reads_readDigits n hrest).map Int.ofNat _
    · exact hminus
  | negSucc n =>
    have hlist : (Int.negSucc n).repr.toList = '-' :: (n + 1).repr.toList := String.toList_append
    rw [hlist]
    exact (reads_readDigits (n + 1) hrest).map (fun n => -Int.ofNat n) _

/-- An integer begins with a digit or with its sign. -/
theorem exists_toString_eq_cons (n : Int) :
    ∃ c cs, (toString n).toList = c :: cs ∧ (c.isDigit = true ∨ c = '-') := by
  rw [Int.toString_eq_repr]
  cases n with
  | ofNat n =>
    obtain ⟨c, cs, hcs, hc⟩ := exists_repr_eq_cons n
    exact ⟨c, cs, hcs, Or.inl hc⟩
  | negSucc n => exact ⟨'-', (n + 1).repr.toList, String.toList_append, Or.inr rfl⟩

/-- Neither of them is a blank. -/
theorem isBlank_of_isDigit_or (h : c.isDigit = true ∨ c = '-') : isBlank c = false := by
  rcases h with h | rfl
  · refine Bool.eq_false_iff.2 fun hb => ?_
    rw [isDigit_eq_false_of_isBlank hb] at h
    cases h
  · rfl

/-! ## Series -/

section Series

variable {n : Nat} {close : Char} {h : cs.length < n} {x : α} {xs : List α}
  {entry : (cs : List Char) → cs.length < n → Option (Parsed α cs)}

/-- The last entry stands before the mark that closes the series. -/
theorem reads_readEntries_one (hx : Reads (entry cs h) x rest₁)
    (hmark : Reads (readMark rest₁) close rest₂) :
    Reads (readEntries close entry cs h) [x] rest₂ := by
  obtain ⟨_, hx⟩ := hx
  obtain ⟨_, hmark⟩ := hmark
  rw [readEntries, hx]
  simp only [Option.bind_eq_bind, Option.bind_some, hmark, if_pos]
  exact ⟨_, rfl⟩

/-- Behind every other entry stand a comma and the next ones. -/
theorem reads_readEntries_cons (hclose : close ≠ ',') (hx : Reads (entry cs h) x rest₁)
    (hmark : Reads (readMark rest₁) ',' rest₂)
    (hxs : ∀ h, Reads (readEntries close entry rest₂ h) xs rest₃) :
    Reads (readEntries close entry cs h) (x :: xs) rest₃ := by
  obtain ⟨hlt₁, hx⟩ := hx
  obtain ⟨hlt₂, hmark⟩ := hmark
  obtain ⟨_, hxs⟩ := hxs (by omega)
  rw [readEntries, hx]
  simp only [Option.bind_eq_bind, Option.bind_some, hmark, if_neg hclose.symm, if_pos, hxs]
  exact ⟨_, rfl⟩

/-- A series that is closed at once has no entries. -/
theorem reads_readSeries_nil (hmark : Reads (readMark cs) close rest) :
    Reads (readSeries close entry cs h) [] rest := by
  obtain ⟨_, hmark⟩ := hmark
  rw [readSeries, hmark]
  simp only [Option.bind_eq_bind, Option.bind_some, if_pos]
  exact ⟨_, rfl⟩

/-- A series that begins with another mark has entries. -/
theorem reads_readSeries_of_ne (hmark : Reads (readMark cs) c rest₁) (hc : c ≠ close)
    (hxs : Reads (readEntries close entry cs h) xs rest) :
    Reads (readSeries close entry cs h) xs rest := by
  obtain ⟨_, hmark⟩ := hmark
  rw [readSeries, hmark]
  simp only [Option.bind_eq_bind, Option.bind_some, if_neg hc]
  exact hxs

/-- What stands behind an entry: the other entries with a comma before each, blanks, and
the mark that closes the series. -/
def moreEntries (text : α → List Char) (blanks : List Char) (close : Char) (rest : List Char) :
    List α → List Char
  | [] => blanks ++ close :: rest
  | x :: xs => ',' :: (text x ++ moreEntries text blanks close rest xs)

/-- What stands behind the mark that opens a series. -/
def allEntries (text : α → List Char) (blanks : List Char) (close : Char) (rest : List Char) :
    List α → List Char
  | [] => close :: rest
  | x :: xs => text x ++ moreEntries text blanks close rest xs

/-- A number that is an entry ends with its entry. -/
theorem ends_moreEntries (text : α → List Char) (hblanks : ∀ b ∈ blanks, isBlank b = true)
    (hclose : close.isDigit = false) (rest : List Char) (xs : List α) :
    Ends (moreEntries text blanks close rest xs) := by
  cases xs with
  | nil =>
    cases blanks with
    | nil => exact ends_cons hclose rest
    | cons b blanks =>
      exact ends_cons (isDigit_eq_false_of_isBlank (hblanks b List.mem_cons_self)) _
  | cons x xs => exact ends_cons (by decide) _

/-- **Entries are read back** if every single one is. -/
theorem reads_readEntries {text : α → List Char}
    (hclose : close.isDigit = false ∧ isBlank close = false ∧ close ≠ ',')
    (hblanks : ∀ b ∈ blanks, isBlank b = true)
    (hentry : ∀ y ∈ x :: xs, ∀ rest h, Ends rest → Reads (entry (text y ++ rest) h) y rest) (h) :
    Reads (readEntries close entry (text x ++ moreEntries text blanks close rest xs) h)
      (x :: xs) rest := by
  obtain ⟨hdigit, hblank, hcomma⟩ := hclose
  have hx := hentry x List.mem_cons_self _ h (ends_moreEntries text hblanks hdigit rest xs)
  induction xs generalizing x with
  | nil => exact reads_readEntries_one hx (reads_readMark hblanks hblank rest)
  | cons y ys ih =>
    have hothers := (List.forall_mem_cons.1 hentry).2
    have hmark : Reads (readMark (moreEntries text blanks close rest (y :: ys))) ',' _ :=
      reads_readMark_cons rfl _
    exact reads_readEntries_cons hcomma hx hmark fun h => ih hothers h
      (hothers y List.mem_cons_self _ h (ends_moreEntries text hblanks hdigit rest ys))

/-- **A series is read back** if its entries are, and if none of them looks like its end. -/
theorem reads_readSeries {text : α → List Char}
    (hclose : close.isDigit = false ∧ isBlank close = false ∧ close ≠ ',')
    (hblanks : ∀ b ∈ blanks, isBlank b = true)
    (hentry : ∀ y ∈ xs, ∀ rest h, Ends rest → Reads (entry (text y ++ rest) h) y rest)
    (hfirst : ∀ y ∈ xs, ∀ rest, ∃ c rest',
      Reads (readMark (text y ++ rest)) c rest' ∧ c ≠ close) (h) :
    Reads (readSeries close entry (allEntries text blanks close rest xs) h) xs rest := by
  cases xs with
  | nil => exact reads_readSeries_nil (reads_readMark_cons hclose.2.1 rest)
  | cons x xs =>
    obtain ⟨c, rest', hmark, hne⟩ :=
      hfirst x List.mem_cons_self (moreEntries text blanks close rest xs)
    exact reads_readSeries_of_ne hmark hne (reads_readEntries hclose hblanks hentry h)

end Series

/-! ## Values -/

/-- A field is read as its name and its value. -/
theorem reads_readField {n : Nat} {h : cs.length < n} {name : String} {j : Json}
    {value : (cs : List Char) → cs.length < n → Option (Parsed Json cs)}
    (hquote : Reads (readMark cs) '"' rest) (hname : Reads (readQuoted rest) name.toList rest₁)
    (hcolon : Reads (readMark rest₁) ':' rest₂) (hj : ∀ h, Reads (value rest₂ h) j rest₃) :
    Reads (readField value cs h) (name, j) rest₃ := by
  obtain ⟨hlt, hquote⟩ := hquote
  obtain ⟨hlt₁, hname⟩ := hname
  obtain ⟨hlt₂, hcolon⟩ := hcolon
  obtain ⟨hlt₃, hj⟩ := hj (by omega)
  rw [readField, hquote]
  simp only [Option.bind_eq_bind, Option.bind_some, hname, hcolon, hj, String.ofList_toList]
  exact ⟨_, rfl⟩

/-- A value that begins with a quote is a text. -/
theorem reads_readValue_str {s : String} (hmark : Reads (readMark cs) '"' rest₁)
    (hs : Reads (readQuoted rest₁) s.toList rest) : Reads (readValue cs) (.str s) rest := by
  obtain ⟨_, hmark⟩ := hmark
  obtain ⟨_, hs⟩ := hs
  rw [readValue, hmark]
  simp only [Option.bind_eq_bind, Option.bind_some, if_pos, hs, Parsed.map, String.ofList_toList]
  exact ⟨_, rfl⟩

/-- A value that begins with a square bracket is an array. -/
theorem reads_readValue_arr {items : List Json} (hmark : Reads (readMark cs) '[' rest₁)
    (hitems : ∀ h : rest₁.length < cs.length,
      Reads (readSeries ']' (fun cs' _ => readValue cs') rest₁ h) items rest) :
    Reads (readValue cs) (.arr items) rest := by
  obtain ⟨hlt, hmark⟩ := hmark
  obtain ⟨_, hitems⟩ := hitems hlt
  rw [readValue, hmark]
  simp only [Option.bind_eq_bind, Option.bind_some, Char.reduceEq, if_false, if_true, hitems]
  exact ⟨_, rfl⟩

/-- A value that begins with a brace is an object. -/
theorem reads_readValue_obj {fields : List (String × Json)}
    (hmark : Reads (readMark cs) '\x7b' rest₁)
    (hfields : ∀ h : rest₁.length < cs.length,
      Reads (readSeries '\x7d' (readField fun cs' _ => readValue cs') rest₁ h) fields rest) :
    Reads (readValue cs) (.obj fields) rest := by
  obtain ⟨hlt, hmark⟩ := hmark
  obtain ⟨_, hfields⟩ := hfields hlt
  rw [readValue, hmark]
  simp only [Option.bind_eq_bind, Option.bind_some, Char.reduceEq, if_false, if_true, hfields]
  exact ⟨_, rfl⟩

/-- A value that begins with a digit or a minus sign is a number. -/
theorem reads_readValue_num {n : Int} (hmark : Reads (readMark cs) c rest₁)
    (hc : c.isDigit = true ∨ c = '-') (hn : Reads (readInt (c :: rest₁)) n rest) :
    Reads (readValue cs) (.num n) rest := by
  have hne : c ≠ '"' ∧ c ≠ '[' ∧ c ≠ '\x7b' := by
    refine ⟨?_, ?_, ?_⟩ <;>
      · rintro rfl
        revert hc
        decide
  obtain ⟨_, hmark⟩ := hmark
  obtain ⟨_, hn⟩ := hn
  rw [readValue, hmark]
  simp only [Option.bind_eq_bind, Option.bind_some, if_neg hne.1, if_neg hne.2.1,
    if_neg hne.2.2, hn]
  exact ⟨_, rfl⟩

/-! ## What is written -/

/-- A layout puts only blanks between the parts of a text. -/
structure Layout.IsBlank (l : Layout) : Prop where
  lineBreak : ∀ depth, ∀ b ∈ (l.lineBreak depth).toList, isBlank b = true
  colon : ∃ blanks, l.colon.toList = ':' :: blanks ∧ ∀ b ∈ blanks, isBlank b = true

/-- The layout on one line puts nothing between the parts. -/
theorem Layout.isBlank_compact : Layout.compact.IsBlank where
  lineBreak _ _ hb := absurd hb List.not_mem_nil
  colon := ⟨[], rfl, fun _ hb => absurd hb List.not_mem_nil⟩

/-- The layout over several lines puts line feeds and spaces between them. -/
theorem Layout.isBlank_pretty : Layout.pretty.IsBlank where
  lineBreak depth b hb := by
    rw [pretty, String.toList_ofList, List.mem_cons, List.mem_replicate] at hb
    rcases hb with rfl | ⟨-, rfl⟩ <;> rfl
  colon := ⟨[' '], rfl, List.forall_mem_singleton.2 rfl⟩

/-- The text of a series between its marks, as its reader sees it. -/
theorem Layout.toList_enclose (l : Layout) (depth : Nat) {left right : String}
    {opening close : Char} (hleft : left.toList = [opening]) (hright : right.toList = [close])
    (f : α → String) (xs : List α) (rest : List Char) :
    (l.enclose depth left right (xs.map f)).toList ++ rest =
      opening :: allEntries (fun x => (l.lineBreak (depth + 1)).toList ++ (f x).toList)
        (l.lineBreak depth).toList close rest xs := by
  -- behind the first part every other one follows its separator
  have hmore : ∀ ys,
      (String.join ((ys.map f).map ("," ++ l.lineBreak (depth + 1) ++ ·))).toList ++
        ((l.lineBreak depth).toList ++ close :: rest) =
      moreEntries (fun x => (l.lineBreak (depth + 1)).toList ++ (f x).toList)
        (l.lineBreak depth).toList close rest ys := by
    intro ys
    induction ys with
    | nil => simp [moreEntries]
    | cons y ys ih =>
      rw [moreEntries, ← ih]
      simp
  cases xs with
  | nil => simp [enclose, allEntries, hleft, hright]
  | cons x xs =>
    rw [allEntries, ← hmore]
    simp [enclose, intercalate_cons, hleft, hright]

/-- A text in quotes, as its reader sees it. -/
theorem toList_quote (s : String) (rest : List Char) :
    (quote s).toList ++ rest = '"' :: (s.toList.flatMap escape ++ '"' :: rest) := by
  simp [quote]

/-- A field, as its reader sees it. -/
theorem toList_field {l : Layout} (hcolon : l.colon.toList = ':' :: blanks) (name text : String)
    (rest : List Char) :
    (quote name ++ l.colon ++ text).toList ++ rest =
      '"' :: (name.toList.flatMap escape ++ '"' :: ':' :: (blanks ++ (text.toList ++ rest))) := by
  rw [String.append_assoc, String.toList_append, List.append_assoc, toList_quote]
  simp [hcolon]

/-- The items of an array are written one by one. -/
theorem renderItems_eq_map (l : Layout) (depth : Nat) (items : List Json) :
    renderItems l depth items = items.map (render l depth) := by
  induction items with
  | nil => rfl
  | cons j items ih => rw [renderItems, ih, List.map_cons]

/-- The fields of an object are written one by one. -/
theorem renderFields_eq_map (l : Layout) (depth : Nat) (fields : List (String × Json)) :
    renderFields l depth fields =
      fields.map fun f => quote f.1 ++ l.colon ++ render l depth f.2 := by
  induction fields with
  | nil => rfl
  | cons f fields ih => rw [renderFields, ih, List.map_cons]

/-! ## Reading what is written -/

/-- The text of a value begins with a character that is not blank and does not close an array. -/
theorem exists_render_eq_cons (l : Layout) (depth : Nat) (j : Json) (rest : List Char) :
    ∃ c rest', (j.render l depth).toList ++ rest = c :: rest' ∧ isBlank c = false ∧ c ≠ ']' := by
  cases j with
  | num n =>
    obtain ⟨c, cs, hcs, hc⟩ := exists_toString_eq_cons n
    refine ⟨c, cs ++ rest, by rw [render, hcs, List.cons_append], isBlank_of_isDigit_or hc, ?_⟩
    rintro rfl
    revert hc
    decide
  | str s => exact ⟨'"', _, toList_quote s rest, rfl, by decide⟩
  | arr items =>
    rw [render, renderItems_eq_map]
    exact ⟨'[', _, l.toList_enclose depth rfl rfl _ items rest, rfl, by decide⟩
  | obj fields =>
    rw [render, renderFields_eq_map]
    exact ⟨'\x7b', _, l.toList_enclose depth rfl rfl _ fields rest, rfl, by decide⟩

/-- **A value is read back from its text**, behind blanks and before what does not begin
with a digit.  The induction is on the value; items and fields are smaller than it. -/
theorem reads_readValue {l : Layout} (hl : l.IsBlank) (depth : Nat) (j : Json)
    {blanks rest : List Char} (hblanks : ∀ b ∈ blanks, isBlank b = true) (hrest : Ends rest) :
    Reads (readValue (blanks ++ ((j.render l depth).toList ++ rest))) j rest := by
  match j with
  | .num n =>
    have hn := reads_readInt n hrest
    obtain ⟨c, cs, hcs, hc⟩ := exists_toString_eq_cons n
    rw [render, hcs]
    rw [hcs] at hn
    exact reads_readValue_num (reads_readMark hblanks (isBlank_of_isDigit_or hc) _) hc hn
  | .str s =>
    rw [render, toList_quote]
    exact reads_readValue_str (reads_readMark hblanks rfl _) (reads_readQuoted s.toList rest)
  | .arr items =>
    rw [render, renderItems_eq_map, l.toList_enclose depth rfl rfl]
    refine reads_readValue_arr (reads_readMark hblanks rfl _) fun h =>
      reads_readSeries ⟨rfl, rfl, by decide⟩ (hl.lineBreak depth) ?_ ?_ h
    · intro item hitem rest h hends
      rw [List.append_assoc]
      exact reads_readValue hl (depth + 1) item (hl.lineBreak _) hends
    · intro item _ rest
      obtain ⟨c, rest', hcons, hc, hne⟩ := exists_render_eq_cons l (depth + 1) item rest
      rw [List.append_assoc, hcons]
      exact ⟨c, rest', reads_readMark (hl.lineBreak _) hc rest', hne⟩
  | .obj fields =>
    rw [render, renderFields_eq_map, l.toList_enclose depth rfl rfl]
    obtain ⟨colonBlanks, hcolon, hcolonBlanks⟩ := hl.colon
    refine reads_readValue_obj (reads_readMark hblanks rfl _) fun h =>
      reads_readSeries ⟨rfl, rfl, by decide⟩ (hl.lineBreak depth) ?_ ?_ h
    · rintro ⟨name, value⟩ hfield rest h hends
      -- the bound is about the text, so it is set aside while the text is rewritten
      revert h
      rw [List.append_assoc, toList_field hcolon]
      intro h
      exact reads_readField (reads_readMark (hl.lineBreak (depth + 1)) rfl _)
        (reads_readQuoted name.toList _) (reads_readMark_cons rfl _)
        fun _ => reads_readValue hl (depth + 1) value hcolonBlanks hends
    · rintro ⟨name, value⟩ - rest
      rw [List.append_assoc, toList_field hcolon]
      exact ⟨'"', _, reads_readMark (hl.lineBreak _) rfl _, by decide⟩
termination_by sizeOf j
decreasing_by
  · have := List.sizeOf_lt_of_mem hitem
    simp only [arr.sizeOf_spec]
    omega
  · have := List.sizeOf_lt_of_mem hfield
    simp only [obj.sizeOf_spec, Prod.mk.sizeOf_spec] at this ⊢
    omega

/-- **What is written is read back**, in every layout that puts only blanks between the
parts, also with blanks behind it. -/
theorem read?_render {l : Layout} (hl : l.IsBlank) (depth : Nat) (j : Json) {after : String}
    (hafter : ∀ b ∈ after.toList, isBlank b = true) :
    read? (j.render l depth ++ after) = some j := by
  have hends : Ends after.toList := fun c hc =>
    isDigit_eq_false_of_isBlank (hafter c (List.mem_of_mem_head? hc))
  have hread : Reads (readValue ((j.render l depth).toList ++ after.toList)) j after.toList :=
    reads_readValue hl depth j (List.forall_mem_nil _) hends
  obtain ⟨_, hread⟩ := hread
  rw [read?, String.toList_append, hread]
  simp only [Option.bind_eq_bind, Option.bind_some, if_pos (List.all_eq_true.2 hafter)]
  rfl

/-- **No two values have the same text** in such a layout. -/
theorem render_injective {l : Layout} (hl : l.IsBlank) (depth : Nat) :
    Function.Injective (render l depth) := by
  intro j j' h
  have hnothing : ∀ b ∈ "".toList, isBlank b = true := List.forall_mem_nil _
  have hj := read?_render hl depth j hnothing
  rw [h, read?_render hl depth j' hnothing] at hj
  exact (Option.some.inj hj).symm

/-- No two values have the same text on one line. -/
theorem compact_injective : Function.Injective compact :=
  render_injective Layout.isBlank_compact 0

/-- No two values have the same text over several lines. -/
theorem pretty_injective : Function.Injective pretty := render_injective Layout.isBlank_pretty 0

end Json
end Labyrinth
