import WidgetCompiler.Proofs.Style.Conservation
import WidgetCompiler.Text.Letters

/-!
# Reading a sheet octet by octet

A text is stored as the octets of its characters, one to four for each.  Here a sheet is read by places in
them: the scanners look at one octet after the other, behind a backslash they pass over two octets, be
these two characters or parts of one, and what they find is cut out between two places.  A cut can fail,
where a place is out of range or within a character, and so can counting down; such a reading ends with a
`Fault`.

Main statement: on no text there is a fault, reading ends, and what is read is the sheet that
`Sheet.parse` reads character by character (`parse_eq`).

The reason is that an octet of a character that has several is none of the marks that the scanners look
for (`ne_octet_of_mem`), so each place that a scanner finds is that of a character.
-/

namespace WidgetCompiler.Style

open Text

namespace Octets

/-! ## Texts as octets -/

/-- The octets that a text is stored as. -/
def ofText (t : Text) : List UInt8 := t.flatMap String.utf8EncodeChar

/-- The number of octets of a text. -/
def size (t : Text) : Nat := (ofText t).length

/-- The octet of a character that has one. -/
def octet (c : Char) : UInt8 := UInt8.ofNat c.toNat

/-- What goes wrong in reading. -/
inductive Fault
  /-- A slice that does not lie in the text, or that begins or ends within a character. -/
  | slice (start stop : Nat)
  /-- A depth below zero. -/
  | depth
  /-- More rounds than were allowed. -/
  | rounds
deriving DecidableEq, Repr

/-- The first `n` octets of a text, if a character ends with them, and the text behind. -/
def splitAt? : Nat → Text → Option (Text × Text)
  | 0, t => some ([], t)
  | _ + 1, [] => none
  | n + 1, c :: t =>
    if c.utf8Size ≤ n + 1 then
      (splitAt? (n + 1 - c.utf8Size) t).map fun (front, behind) => (c :: front, behind)
    else none

/-- The text between two places. -/
def slice (t : Text) (start stop : Nat) : Except Fault Text :=
  if start ≤ stop then
    match (splitAt? start t).bind fun (_, behind) => splitAt? (stop - start) behind with
    | some (inner, _) => .ok inner
    | none => .error (.slice start stop)
  else .error (.slice start stop)

/-! ## The scanners -/

/-- The place at which the prelude ends that is read from the given place on, and the octet there. -/
def preludeEnd? (octets : List UInt8) (quote : Option UInt8) (parens i : Nat) : Option (Nat × UInt8) :=
  match _h : octets[i]? with
  | none => none
  | some b =>
    match quote with
    | some q =>
      if b = octet '\\' then preludeEnd? octets (some q) parens (i + 2)
      else preludeEnd? octets (if b = q then none else some q) parens (i + 1)
    | none =>
      if b = octet '"' ∨ b = octet '\'' then preludeEnd? octets (some b) parens (i + 1)
      else if b = octet '(' then preludeEnd? octets none (parens + 1) (i + 1)
      else if b = octet ')' then preludeEnd? octets none (parens - 1) (i + 1)
      else if (b = octet ';' ∨ b = octet '\x7b') ∧ parens = 0 then some (i, b)
      else preludeEnd? octets none parens (i + 1)
termination_by octets.length - i
decreasing_by
  all_goals
    have := (List.getElem?_eq_some_iff.1 _h).1
    omega

/-- The place behind the comment that begins at a place, or behind the text if the comment does not
end. -/
def commentEnd (css : Text) (i : Nat) : Except Fault Nat := do
  let body ← slice css (i + 2) (size css)
  return match cut? "*/" body with
    | some (inner, _) => i + 2 + size inner + 2
    | none => size css

theorem lt_of_commentEnd {css : Text} {i stop : Nat} (hi : i < size css)
    (h : commentEnd css i = .ok stop) : i < stop := by
  unfold commentEnd at h
  cases hslice : slice css (i + 2) (size css) with
  | error fault => simp [hslice, bind, Except.bind] at h
  | ok body =>
    obtain rfl := by simpa [hslice, bind, Except.bind, pure, Except.pure] using h
    split <;> omega

/-- The place of the brace that closes the outermost of `depth` open blocks, read from the given place
on. -/
def blockEnd? (css : Text) (quote : Option UInt8) (depth i : Nat) : Except Fault (Option Nat) :=
  match _h : (ofText css)[i]? with
  | none => .ok none
  | some b =>
    match quote with
    | some q =>
      if b = octet '\\' then blockEnd? css (some q) depth (i + 2)
      else blockEnd? css (if b = q then none else some q) depth (i + 1)
    | none =>
      if b = octet '/' ∧ (ofText css)[i + 1]? = some (octet '*') then
        match _hstop : commentEnd css i with
        | .error fault => .error fault
        | .ok stop => blockEnd? css none depth stop
      else if b = octet '"' ∨ b = octet '\'' then blockEnd? css (some b) depth (i + 1)
      else if b = octet '\x7b' then blockEnd? css none (depth + 1) (i + 1)
      else if b = octet '\x7d' then
        match depth with
        | 0 => .error .depth
        | 1 => .ok (some i)
        | depth + 2 => blockEnd? css none (depth + 1) (i + 1)
      else blockEnd? css none depth (i + 1)
termination_by size css - i
decreasing_by
  all_goals
    have hi : i < size css := (List.getElem?_eq_some_iff.1 _h).1
  any_goals omega
  exact Nat.sub_lt_sub_left hi (lt_of_commentEnd hi _hstop)

/-- Whether the octet is a white space character. -/
def isBlankOctet (b : UInt8) : Bool :=
  b == octet ' ' || b == octet '\t' || b == octet '\n' || b == octet '\x0c' || b == octet '\r'

/-- The sheet that a text holds from a place on, read in at most so many rounds. -/
def parse : Nat → Text → Nat → Except Fault Sheet
  | 0, _, _ => .error .rounds
  | n + 1, css, i =>
    match (ofText css)[i]? with
    | none => return []
    | some b =>
      if isBlankOctet b || b == octet '\x7d' then parse n css (i + 1)
      else do
        let rest ← slice css i (size css)
        if startsWith rest "/*" then
          let stop ← commentEnd css i
          let comment ← slice css i stop
          return .raw comment :: (← parse n css stop)
        else
          match preludeEnd? (ofText css) none 0 i with
          | none =>
            let rest ← slice css i (size css)
            return if (trim rest).isEmpty then [] else [.raw (trim rest)]
          | some (stop, terminator) =>
            let prelude ← slice css i stop
            if terminator = octet ';' then
              return .raw (trim prelude ++ [';']) :: (← parse n css (stop + 1))
            else
              match ← blockEnd? css none 0 stop with
              | none => return [.raw (trim (← slice css i (size css)))]
              | some close =>
                let inner ← slice css (stop + 1) close
                let node ← match trim prelude with
                  | '@' :: name =>
                    if groupNames.contains (atRuleName name) then
                      pure (Node.group (trim prelude) (← parse n inner 0))
                    else pure (Node.raw (trim (← slice css i (close + 1))))
                  | prelude => pure (Node.rule ⟨splitSelectors prelude, oneLine inner⟩)
                return node :: (← parse n css (close + 1))

/-! ## Octets of characters -/

variable {a b s t inner : Text} {c d : Char}

@[simp] theorem ofText_append (s t : Text) : ofText (s ++ t) = ofText s ++ ofText t :=
  List.flatMap_append

theorem ofText_cons (c : Char) (t : Text) : ofText (c :: t) = String.utf8EncodeChar c ++ ofText t :=
  List.flatMap_cons

@[simp] theorem size_nil : size [] = 0 := rfl

@[simp] theorem size_append (s t : Text) : size (s ++ t) = size s + size t := by
  rw [size, ofText_append, List.length_append, size, size]

@[simp] theorem size_cons (c : Char) (t : Text) : size (c :: t) = c.utf8Size + size t := by
  rw [size, ofText_cons, List.length_append, String.length_utf8EncodeChar, size]

theorem utf8Size_eq_one (h : isAscii c = true) : c.utf8Size = 1 := by
  rw [Char.utf8Size_eq_one_iff, UInt32.le_iff_toNat_le]
  have : c.toNat < 128 := by simpa [isAscii] using h
  exact Nat.lt_succ_iff.1 this

/-- The other characters have several octets. -/
theorem one_lt_utf8Size (h : isAscii c = false) : 1 < c.utf8Size := by
  have hne : c.utf8Size ≠ 1 := by
    rw [Ne, Char.utf8Size_eq_one_iff, UInt32.le_iff_toNat_le]
    have : ¬ c.toNat < 128 := by simpa [isAscii] using h
    exact fun hle => this (Nat.lt_succ_iff.2 hle)
  have := c.utf8Size_pos
  omega

theorem utf8EncodeChar_ascii (h : isAscii c = true) : String.utf8EncodeChar c = [octet c] :=
  String.utf8EncodeChar_eq_singleton (utf8Size_eq_one h)

theorem toNat_octet (h : isAscii c = true) : (octet c).toNat = c.toNat := by
  have hc : c.toNat < 128 := by simpa [isAscii] using h
  rw [octet, UInt8.toNat_ofNat']
  omega

theorem octet_eq_iff (hc : isAscii c = true) (hd : isAscii d = true) : octet c = octet d ↔ c = d := by
  rw [← UInt8.toNat_inj, toNat_octet hc, toNat_octet hd, Char.toNat_inj]

/-- The octets of a character that has several are none of those of the other characters. -/
theorem ne_octet_of_mem (h : isAscii c = false) {o : UInt8} (ho : o ∈ String.utf8EncodeChar c)
    (hd : isAscii d = true) : o ≠ octet d := by
  have hd' : d.toNat < 128 := by simpa [isAscii] using hd
  have hc : ¬ c.val.toNat ≤ 127 := by
    have hlt : ¬ c.toNat < 128 := by simpa [isAscii] using h
    exact fun hle => hlt (Nat.lt_succ_of_le hle)
  have hhigh : 128 ≤ o.toNat := by
    unfold String.utf8EncodeChar at ho
    simp only [hc, if_false] at ho
    split at ho
    · rcases (by simpa using ho : _ ∨ _) with rfl | rfl <;> simp <;> omega
    split at ho
    · rcases (by simpa using ho : _ ∨ _ ∨ _) with rfl | rfl | rfl <;> simp <;> omega
    · rcases (by simpa using ho : _ ∨ _ ∨ _ ∨ _) with rfl | rfl | rfl | rfl <;> simp <;> omega
  rintro rfl
  rw [toNat_octet hd] at hhigh
  omega

/-! ## Places -/

/-- The octets from the place behind a text on. -/
theorem getElem?_append (a s : Text) (k : Nat) : (ofText (a ++ s))[size a + k]? = (ofText s)[k]? := by
  rw [ofText_append, size, List.getElem?_append_right (Nat.le_add_right _ _), Nat.add_sub_cancel_left]

theorem getElem?_end (a : Text) {k : Nat} (hk : size a ≤ k) : (ofText a)[k]? = none :=
  List.getElem?_eq_none hk

theorem getElem?_ascii (h : isAscii c = true) : (ofText (a ++ c :: s))[size a]? = some (octet c) := by
  have hplace := getElem?_append a (c :: s) 0
  rwa [Nat.add_zero, ofText_cons, utf8EncodeChar_ascii h] at hplace

/-- An octet that is no character by itself. -/
def IsPart (o : UInt8) : Prop := ∀ d, isAscii d = true → o ≠ octet d

theorem getElem?_part (h : isAscii c = false) {k : Nat} (hk : k < c.utf8Size) :
    ∃ o, (ofText (a ++ c :: s))[size a + k]? = some o ∧ IsPart o := by
  have hlength : k < (String.utf8EncodeChar c).length := by rwa [String.length_utf8EncodeChar]
  refine ⟨(String.utf8EncodeChar c)[k], ?_, fun d => ne_octet_of_mem h (List.getElem_mem hlength)⟩
  rw [getElem?_append, ofText_cons, List.getElem?_append_left hlength, List.getElem?_eq_getElem hlength]

/-- The first octet of a character is that of another character only if the two are the same. -/
theorem exists_here (a : Text) (c : Char) (s : Text) : ∃ here, (ofText (a ++ c :: s))[size a]? = some here
    ∧ ∀ d, isAscii d = true → (here = octet d ↔ c = d) := by
  cases h : isAscii c with
  | true => exact ⟨octet c, getElem?_ascii h, fun d hd => octet_eq_iff h hd⟩
  | false =>
    obtain ⟨here, hhere, hpart⟩ := getElem?_part (a := a) (s := s) h c.utf8Size_pos
    rw [Nat.add_zero] at hhere
    refine ⟨here, hhere, fun d hd => iff_of_false (hpart d hd) ?_⟩
    rintro rfl
    exact Bool.false_ne_true (h.symm.trans hd)

theorem splitAt?_cons (c : Char) (n : Nat) (t : Text) :
    splitAt? (c.utf8Size + n) (c :: t)
      = (splitAt? n t).map fun (front, behind) => (c :: front, behind) := by
  obtain ⟨k, hk⟩ := Nat.exists_eq_succ_of_ne_zero c.utf8Size_pos.ne'
  have hsum : c.utf8Size + n = (k + n) + 1 := by omega
  have hfits : c.utf8Size ≤ k + n + 1 := by omega
  have hleft : k + n + 1 - c.utf8Size = n := by omega
  rw [hsum, splitAt?, if_pos hfits, hleft]

theorem splitAt?_append (a b : Text) : splitAt? (size a) (a ++ b) = some (a, b) := by
  induction a with
  | nil => rw [size_nil, splitAt?, List.nil_append]
  | cons c a ih => rw [size_cons, List.cons_append, splitAt?_cons, ih]; rfl

/-- A piece of a text between the places where it begins and ends. -/
theorem slice_append (a t b : Text) : slice (a ++ (t ++ b)) (size a) (size a + size t) = .ok t := by
  rw [slice, if_pos (Nat.le_add_right _ _), splitAt?_append, Nat.add_sub_cancel_left]
  simp only [Option.bind_some, splitAt?_append]

theorem slice_end (a t : Text) : slice (a ++ t) (size a) (size (a ++ t)) = .ok t := by
  have h := slice_append a t []
  rwa [List.append_nil, ← size_append] at h

/-! ## Characters in quotes and characters of several octets -/

/-- A reader of octets, from place to place and within a quote or none, that reads quotes and octets
that are no characters by themselves as both scanners do. -/
structure ReadsQuotes {β : Type} (octets : List UInt8) (read : Option UInt8 → Nat → β) : Prop where
  quoted : ∀ {o b : UInt8} {i : Nat}, octets[i]? = some b → read (some o) i
    = if b = octet '\\' then read (some o) (i + 2) else read (if b = o then none else some o) (i + 1)
  part : ∀ {o : UInt8} {i : Nat}, octets[i]? = some o → IsPart o → read none i = read none (i + 1)

theorem isAscii_of_isQuote (h : isQuote c = true) : isAscii c = true := by
  rcases (by simpa [isQuote] using h : c = '"' ∨ c = '\'') with rfl | rfl <;> rfl

theorem eq_octet_quote_iff (h : isAscii c = true) :
    (octet c = octet '"' ∨ octet c = octet '\'') ↔ isQuote c = true := by
  rw [octet_eq_iff h rfl, octet_eq_iff h rfl]
  simp [isQuote]

/-- Behind a character the place is that of the text behind it. -/
theorem size_concat (h : isAscii c = true) (a : Text) : size (a ++ [c]) = size a + 1 := by
  rw [size_append, size_cons, utf8Size_eq_one h, size_nil]

namespace ReadsQuotes

variable {β : Type} {octets : List UInt8} {read : Option UInt8 → Nat → β} {i : Nat} {q : Char}

/-- Octets that are no characters by themselves are passed over. -/
theorem skip (hread : ReadsQuotes octets read) (quote : Option Char)
    (hquote : ∀ q ∈ quote, isAscii q = true) (n : Nat)
    (h : ∀ k < n, ∃ o, octets[i + k]? = some o ∧ IsPart o) :
    read (quote.map octet) i = read (quote.map octet) (i + n) := by
  induction n generalizing i with
  | zero => rfl
  | succ n ih =>
    obtain ⟨o, ho, hpart⟩ := h 0 (Nat.succ_pos n)
    rw [Nat.add_zero] at ho
    have hstep : read (quote.map octet) i = read (quote.map octet) (i + 1) := by
      cases quote with
      | none => exact hread.part ho hpart
      | some q => simp [hread.quoted ho, hpart '\\' rfl, hpart q (hquote q rfl)]
    have hrest : ∀ k < n, ∃ o, octets[i + 1 + k]? = some o ∧ IsPart o := fun k hk => by
      rw [Nat.add_assoc, Nat.add_comm 1 k]
      exact h (k + 1) (Nat.succ_lt_succ hk)
    rw [hstep, ih hrest, Nat.add_assoc, Nat.add_comm 1 n]

/-- A character of several octets is passed over. -/
theorem foreign (hread : ReadsQuotes (ofText (a ++ c :: s)) read) (quote : Option Char)
    (hquote : ∀ q ∈ quote, isAscii q = true) (h : isAscii c = false) :
    read (quote.map octet) (size a) = read (quote.map octet) (size (a ++ [c])) := by
  rw [hread.skip quote hquote c.utf8Size fun k hk => getElem?_part h hk]
  simp

theorem quoted_cons (hread : ReadsQuotes (ofText (a ++ c :: s)) read) (hq : isQuote q = true)
    (hc : c ≠ '\\') :
    read (some (octet q)) (size a)
      = read ((if c = q then none else some q).map octet) (size (a ++ [c])) := by
  have hq' := isAscii_of_isQuote hq
  cases h : isAscii c with
  | true =>
    have hback : octet c ≠ octet '\\' := fun e => hc ((octet_eq_iff h rfl).1 e)
    rw [hread.quoted (getElem?_ascii h), if_neg hback, size_concat h]
    simp only [octet_eq_iff h hq']
    split <;> rfl
  | false =>
    have hne : c ≠ q := by
      rintro rfl
      exact Bool.false_ne_true (h.symm.trans hq')
    have hskip := hread.foreign (some q) (by simpa using hq') h
    rw [if_neg hne]
    exact hskip

/-- Behind a backslash two octets are passed over in all, and with them a character. -/
theorem escaped (hread : ReadsQuotes (ofText (a ++ '\\' :: d :: s)) read) (hq : isQuote q = true) :
    read (some (octet q)) (size a) = read (some (octet q)) (size (a ++ ['\\', d])) := by
  rw [hread.quoted (getElem?_ascii rfl), if_pos rfl]
  have hback : ('\\').utf8Size = 1 := utf8Size_eq_one rfl
  have hsize := d.utf8Size_pos
  have hplace : size (a ++ ['\\', d]) = size a + 2 + (d.utf8Size - 1) := by
    simp [hback]
    omega
  rw [hplace]
  refine hread.skip (some q) (by simpa using isAscii_of_isQuote hq) _ fun k hk => ?_
  -- the first octet of the character was the second one that was passed over
  cases h : isAscii d with
  | true =>
    rw [utf8Size_eq_one h] at hk
    exact absurd hk (Nat.not_lt_zero k)
  | false =>
    have hplace : size a + 2 + k = size (a ++ ['\\']) + (k + 1) := by
      simp [hback]
      omega
    have hshape : a ++ '\\' :: d :: s = a ++ ['\\'] ++ d :: s := by simp
    rw [hplace, hshape]
    exact getElem?_part h (by omega)

end ReadsQuotes

/-! ## Preludes -/

variable {octets : List UInt8} {i parens : Nat} {q : Char}

theorem preludeEnd?_of_getElem?_eq_none (quote : Option UInt8) (h : octets[i]? = none) :
    preludeEnd? octets quote parens i = none := by
  rw [preludeEnd?.eq_def]
  split
  · rfl
  · simp_all

theorem preludeEnd?_plain {b : UInt8} (h : octets[i]? = some b) :
    preludeEnd? octets none parens i
      = if b = octet '"' ∨ b = octet '\'' then preludeEnd? octets (some b) parens (i + 1)
        else if b = octet '(' then preludeEnd? octets none (parens + 1) (i + 1)
        else if b = octet ')' then preludeEnd? octets none (parens - 1) (i + 1)
        else if (b = octet ';' ∨ b = octet '\x7b') ∧ parens = 0 then some (i, b)
        else preludeEnd? octets none parens (i + 1) := by
  rw [preludeEnd?.eq_def]
  split <;> simp_all

theorem readsQuotes_preludeEnd? (octets : List UInt8) (parens : Nat) :
    ReadsQuotes octets fun quote i => preludeEnd? octets quote parens i where
  quoted h := by
    rw [preludeEnd?.eq_def]
    split <;> simp_all
  part h hpart := by
    simp [preludeEnd?_plain h, hpart '"' rfl, hpart '\'' rfl, hpart '(' rfl, hpart ')' rfl,
      hpart ';' rfl, hpart '\x7b' rfl]

theorem preludeEnd?_plain_cons : preludeEnd? (ofText (a ++ c :: s)) none parens (size a)
    = if isQuote c then preludeEnd? (ofText (a ++ [c] ++ s)) (some (octet c)) parens (size (a ++ [c]))
      else if c = '(' then preludeEnd? (ofText (a ++ [c] ++ s)) none (parens + 1) (size (a ++ [c]))
      else if c = ')' then preludeEnd? (ofText (a ++ [c] ++ s)) none (parens - 1) (size (a ++ [c]))
      else if (c = ';' ∨ c = '\x7b') ∧ parens = 0 then some (size a, octet c)
      else preludeEnd? (ofText (a ++ [c] ++ s)) none parens (size (a ++ [c])) := by
  have hshape : a ++ c :: s = a ++ [c] ++ s := by simp
  cases h : isAscii c with
  | true =>
    rw [preludeEnd?_plain (getElem?_ascii h), size_concat h, ← hshape]
    simp only [eq_octet_quote_iff h, octet_eq_iff h (d := '(') rfl, octet_eq_iff h (d := ')') rfl,
      octet_eq_iff h (d := ';') rfl, octet_eq_iff h (d := '\x7b') rfl]
  | false =>
    have hne {d : Char} (hd : isAscii d = true) : c ≠ d := by
      rintro rfl
      exact Bool.false_ne_true (h.symm.trans hd)
    have hquote : ¬ isQuote c = true := fun hq => hne (isAscii_of_isQuote hq) rfl
    have hskip := (readsQuotes_preludeEnd? (ofText (a ++ c :: s)) parens).foreign none
      (by simp) h
    rw [if_neg hquote, if_neg (hne rfl), if_neg (hne rfl),
      if_neg fun e => e.1.elim (hne rfl) (hne rfl), ← hshape]
    exact hskip

/-- The place that the scanner finds is that behind the prelude. -/
theorem preludeEnd?_eq (quote : Option Char) (hquote : ∀ q ∈ quote, isQuote q = true) (parens : Nat)
    (s a : Text) : preludeEnd? (ofText (a ++ s)) (quote.map octet) parens (size a)
      = (Style.preludeEnd? quote parens s).map fun (prelude, stop, _) =>
        (size (a ++ prelude), octet stop.char) := by
  fun_induction Style.preludeEnd? quote parens s generalizing a with
  | case1 =>
    rw [List.append_nil, preludeEnd?_of_getElem?_eq_none _ (getElem?_end a le_rfl)]
    rfl
  | case2 parens q =>
    have hback : ('\\').utf8Size = 1 := utf8Size_eq_one rfl
    have hend : size (a ++ ['\\']) ≤ size a + 2 := by simp [hback]
    rw [Option.map_some, (readsQuotes_preludeEnd? _ parens).quoted (getElem?_ascii rfl), if_pos rfl,
      preludeEnd?_of_getElem?_eq_none _ (getElem?_end _ hend)]
    rfl
  | case3 parens q d s ih =>
    have hshape : a ++ '\\' :: d :: s = a ++ ['\\', d] ++ s := by simp
    rw [Option.map_some, (readsQuotes_preludeEnd? _ parens).escaped (hquote q rfl), hshape]
    refine (ih hquote (a ++ ['\\', d])).trans ?_
    simp [Function.comp_def]
  | case4 parens c s keep q hc ih =>
    have hstays : ∀ p ∈ (if c = q then none else some q), isQuote p = true := fun p hp => by
      split at hp
      · simp at hp
      · exact hquote p hp
    have hshape : a ++ c :: s = a ++ [c] ++ s := by simp
    rw [Option.map_some, (readsQuotes_preludeEnd? _ parens).quoted_cons (hquote q rfl) hc, hshape,
      ih hstays (a ++ [c])]
    simp [keep, Function.comp_def]
  | case5 parens c s keep hc ih =>
    have hopened : ∀ p ∈ some c, isQuote p = true := by simpa using hc
    rw [Option.map_none, preludeEnd?_plain_cons, if_pos hc]
    refine (ih hopened (a ++ [c])).trans ?_
    simp [keep, Function.comp_def]
  | case6 parens s keep _ ih =>
    rw [Option.map_none, preludeEnd?_plain_cons, if_neg (by decide), if_pos rfl]
    refine (ih hquote (a ++ ['('])).trans ?_
    simp [keep, Function.comp_def]
  | case7 parens s keep _ _ ih =>
    rw [Option.map_none, preludeEnd?_plain_cons, if_neg (by decide), if_neg (by decide), if_pos rfl]
    refine (ih hquote (a ++ [')'])).trans ?_
    simp [keep, Function.comp_def]
  | case8 parens c s h₁ h₂ h₃ hend =>
    rw [Option.map_none, preludeEnd?_plain_cons, if_neg h₁, if_neg h₂, if_neg h₃,
      if_pos ⟨.inl hend.1, hend.2⟩, hend.1]
    simp [PreludeEnd.char]
  | case9 parens c s h₁ h₂ h₃ _ hend =>
    rw [Option.map_none, preludeEnd?_plain_cons, if_neg h₁, if_neg h₂, if_neg h₃,
      if_pos ⟨.inr hend.1, hend.2⟩, hend.1]
    simp [PreludeEnd.char]
  | case10 parens c s keep h₁ h₂ h₃ hstatement hblock ih =>
    have hgoes : ¬ ((c = ';' ∨ c = '\x7b') ∧ parens = 0) := fun h =>
      h.1.elim (fun hc => hstatement ⟨hc, h.2⟩) fun hc => hblock ⟨hc, h.2⟩
    rw [Option.map_none, preludeEnd?_plain_cons, if_neg h₁, if_neg h₂, if_neg h₃, if_neg hgoes]
    refine (ih hquote (a ++ [c])).trans ?_
    simp [keep, Function.comp_def]

/-! ## Blocks -/

variable {css : Text} {depth : Nat}

theorem blockEnd?_of_getElem?_eq_none (quote : Option UInt8) (depth : Nat)
    (h : (ofText css)[i]? = none) : blockEnd? css quote depth i = .ok none := by
  rw [blockEnd?.eq_def]
  split
  · rfl
  · simp_all

theorem blockEnd?_plain {b : UInt8} (h : (ofText css)[i]? = some b) :
    blockEnd? css none (depth + 1) i
      = if b = octet '/' ∧ (ofText css)[i + 1]? = some (octet '*') then
          (commentEnd css i).bind fun stop => blockEnd? css none (depth + 1) stop
        else if b = octet '"' ∨ b = octet '\'' then blockEnd? css (some b) (depth + 1) (i + 1)
        else if b = octet '\x7b' then blockEnd? css none (depth + 2) (i + 1)
        else if b = octet '\x7d' then
          if depth = 0 then .ok (some i) else blockEnd? css none depth (i + 1)
        else blockEnd? css none (depth + 1) (i + 1) := by
  rw [blockEnd?.eq_def]
  split
  · simp_all
  · next b' h' =>
    obtain rfl : b = b' := Option.some.inj (h.symm.trans h')
    refine if_congr Iff.rfl ?_ (if_congr Iff.rfl rfl (if_congr Iff.rfl rfl (if_congr Iff.rfl ?_ rfl)))
    · split <;> simp_all [Except.bind]
    · cases depth <;> rfl

theorem readsQuotes_blockEnd? (css : Text) (depth : Nat) :
    ReadsQuotes (ofText css) fun quote i => blockEnd? css quote (depth + 1) i where
  quoted h := by
    rw [blockEnd?.eq_def]
    split <;> simp_all
  part h hpart := by
    simp [blockEnd?_plain h, hpart '"' rfl, hpart '\'' rfl, hpart '/' rfl, hpart '\x7b' rfl,
      hpart '\x7d' rfl]

/-- Behind the mark that begins a comment. -/
theorem commentEnd_eq (a s : Text) : commentEnd (a ++ "/*" ++ s) (size a)
    = .ok (match cut? "*/" s with
      | some (inner, _) => size (a ++ "/*" ++ inner ++ "*/")
      | none => size (a ++ "/*" ++ s)) := by
  have hmark : size "/*" = 2 := rfl
  have hend : size "*/" = 2 := rfl
  have hslice := slice_end (a ++ "/*") s
  rw [size_append a, hmark] at hslice
  rw [commentEnd, hslice]
  simp only [bind, Except.bind, pure, Except.pure]
  split <;> simp only [size_append, hmark, hend]

/-- A character with which no comment begins. -/
theorem blockEnd?_plain_cons (hcomment : ∀ s', c = '/' → s = '*' :: s' → False) :
    blockEnd? (a ++ c :: s) none (depth + 1) (size a)
      = if isQuote c then blockEnd? (a ++ [c] ++ s) (some (octet c)) (depth + 1) (size (a ++ [c]))
        else if c = '\x7b' then blockEnd? (a ++ [c] ++ s) none (depth + 2) (size (a ++ [c]))
        else if c = '\x7d' then
          if depth = 0 then .ok (some (size a))
          else blockEnd? (a ++ [c] ++ s) none depth (size (a ++ [c]))
        else blockEnd? (a ++ [c] ++ s) none (depth + 1) (size (a ++ [c])) := by
  have hshape : a ++ c :: s = a ++ [c] ++ s := by simp
  cases h : isAscii c with
  | true =>
    have hplain : ¬ (octet c = octet '/'
        ∧ (ofText (a ++ c :: s))[size a + 1]? = some (octet '*')) := by
      rintro ⟨hc, hd⟩
      obtain rfl := (octet_eq_iff h rfl).1 hc
      rw [hshape, ← size_concat h, ← Nat.add_zero (size _), getElem?_append] at hd
      cases s with
      | nil => simp [ofText] at hd
      | cons d s =>
        cases hd' : isAscii d with
        | true =>
          rw [ofText_cons, utf8EncodeChar_ascii hd'] at hd
          obtain rfl := (octet_eq_iff hd' rfl).1 (Option.some.inj hd)
          exact hcomment s rfl rfl
        | false =>
          obtain ⟨o, ho, hpart⟩ := getElem?_part (a := []) (s := s) hd' d.utf8Size_pos
          rw [List.nil_append, size_nil, Nat.zero_add, hd] at ho
          exact hpart '*' rfl (Option.some.inj ho).symm
    rw [blockEnd?_plain (getElem?_ascii h), if_neg hplain, size_concat h, ← hshape]
    simp only [eq_octet_quote_iff h, octet_eq_iff h (d := '\x7b') rfl,
      octet_eq_iff h (d := '\x7d') rfl]
  | false =>
    have hne {d : Char} (hd : isAscii d = true) : c ≠ d := by
      rintro rfl
      exact Bool.false_ne_true (h.symm.trans hd)
    have hquote : ¬ isQuote c = true := fun hq => hne (isAscii_of_isQuote hq) rfl
    have hskip := (readsQuotes_blockEnd? (a ++ c :: s) depth).foreign none (by simp) h
    rw [if_neg hquote, if_neg (hne rfl), if_neg (hne rfl), ← hshape]
    exact hskip

/-- What the scanner of blocks still has to do in a text that is read in the given state. -/
def resume (a s : Text) (depth : Nat) : BlockState → Except Fault (Option Nat)
  | .plain => blockEnd? (a ++ s) none (depth + 1) (size a)
  | .quoted q => blockEnd? (a ++ s) (some (octet q)) (depth + 1) (size a)
  | .comment =>
    match cut? "*/" s with
    | some (inner, _) => blockEnd? (a ++ s) none (depth + 1) (size (a ++ inner ++ "*/"))
    | none => blockEnd? (a ++ s) none (depth + 1) (size (a ++ s))

/-- The place that the scanner finds is that behind what stands in the block. -/
theorem resume_eq (state : BlockState) (hstate : ∀ q, state = .quoted q → isQuote q = true)
    (depth : Nat) (s a : Text) : resume a s depth state
      = .ok ((Style.blockEnd? state depth s).map fun (inner, _) => size (a ++ inner)) := by
  fun_induction Style.blockEnd? state depth s generalizing a with
  | case1 state depth =>
    have hend (quote : Option UInt8) : blockEnd? (a ++ []) quote (depth + 1) (size (a ++ [])) = .ok none :=
      blockEnd?_of_getElem?_eq_none quote _ (getElem?_end _ le_rfl)
    have hsize : size (a ++ []) = size a := by rw [List.append_nil]
    cases state with
    | plain => rw [resume, ← hsize, hend]; rfl
    | quoted q => rw [resume, ← hsize, hend]; rfl
    | comment => exact hend none
  | case2 depth q =>
    have hback : ('\\').utf8Size = 1 := utf8Size_eq_one rfl
    have hend : size (a ++ ['\\']) ≤ size a + 2 := by simp [hback]
    rw [resume, (readsQuotes_blockEnd? _ depth).quoted (getElem?_ascii rfl), if_pos rfl,
      blockEnd?_of_getElem?_eq_none _ _ (getElem?_end _ hend)]
    rfl
  | case3 depth q d s ih =>
    have hshape : a ++ '\\' :: d :: s = a ++ ['\\', d] ++ s := by simp
    rw [resume, (readsQuotes_blockEnd? _ depth).escaped (hstate q rfl), hshape]
    refine (ih hstate (a ++ ['\\', d])).trans ?_
    simp [Function.comp_def]
  | case4 depth c s keep q hc ih =>
    have hshape : a ++ c :: s = a ++ [c] ++ s := by simp
    rw [resume, (readsQuotes_blockEnd? _ depth).quoted_cons (hstate q rfl) hc, hshape]
    by_cases hcq : c = q
    · simp only [if_pos hcq] at ih ⊢
      refine (ih (by simp) (a ++ [c])).trans ?_
      simp [keep, Function.comp_def]
    · simp only [if_neg hcq] at ih ⊢
      refine (ih hstate (a ++ [c])).trans ?_
      simp [keep, Function.comp_def]
  | case5 depth s ih =>
    have hcut : cut? "*/" ('*' :: '/' :: s) = some ([], s) := by simp [cut?, after?]
    have hshape : a ++ '*' :: '/' :: s = a ++ ['*', '/'] ++ s := by simp
    have hplace : a ++ [] ++ ("*/" : Text) = a ++ ['*', '/'] := by simp
    simp only [resume, hcut, hplace, hshape]
    refine (ih (by simp) (a ++ ['*', '/'])).trans ?_
    simp [Function.comp_def]
  | case6 depth c keep s hstays ih =>
    have hbegins : after? "*/" (c :: s) = none := by
      refine Option.eq_none_iff_forall_ne_some.2 fun rest hrest => ?_
      obtain ⟨rfl, rfl⟩ : c = '*' ∧ s = '/' :: rest := by simpa using after?_eq_some.1 hrest
      exact hstays rest rfl rfl
    have hnext : resume a (c :: s) depth .comment = resume (a ++ [c]) s depth .comment := by
      simp only [resume, cut?, hbegins]
      cases cut? "*/" s <;> simp
    rw [hnext, ih (by simp) (a ++ [c])]
    simp [keep, Function.comp_def]
  | case7 depth s ih =>
    have hstar : (ofText (a ++ '/' :: '*' :: s))[size a + 1]? = some (octet '*') := by
      have hplace := getElem?_ascii (a := a ++ ['/']) (s := s) (c := '*') rfl
      rwa [size_concat rfl, List.append_assoc] at hplace
    have hshape : a ++ '/' :: '*' :: s = a ++ "/*" ++ s := by simp
    rw [resume, blockEnd?_plain (getElem?_ascii rfl), if_pos ⟨rfl, hstar⟩, hshape]
    have hnext : (commentEnd (a ++ "/*" ++ s) (size a)).bind (fun stop =>
        blockEnd? (a ++ "/*" ++ s) none (depth + 1) stop) = resume (a ++ "/*") s depth .comment := by
      rw [commentEnd_eq]
      simp only [resume, Except.bind]
      cases cut? "*/" s <;> rfl
    rw [hnext, ih (by simp) (a ++ "/*")]
    simp [Function.comp_def]
  | case8 depth c s hcomment hc keep ih =>
    rw [resume, blockEnd?_plain_cons hcomment, if_pos hc]
    refine (ih (by simpa using hc) (a ++ [c])).trans ?_
    simp [keep, Function.comp_def]
  | case9 depth s hcomment _ keep ih =>
    rw [resume, blockEnd?_plain_cons hcomment, if_neg (by decide), if_pos rfl]
    refine (ih (by simp) (a ++ ['\x7b'])).trans ?_
    simp [keep, Function.comp_def]
  | case10 s hcomment =>
    rw [resume, blockEnd?_plain_cons hcomment, if_neg (by decide), if_neg (by decide), if_pos rfl,
      if_pos rfl]
    simp
  | case11 s depth hcomment _ _ keep ih =>
    rw [resume, blockEnd?_plain_cons hcomment, if_neg (by decide), if_neg (by decide), if_pos rfl,
      if_neg (Nat.succ_ne_zero depth)]
    refine (ih (by simp) (a ++ ['\x7d'])).trans ?_
    simp [keep, Function.comp_def]
  | case12 depth c s hcomment h₁ h₂ h₃ keep ih =>
    rw [resume, blockEnd?_plain_cons hcomment, if_neg h₁, if_neg h₂, if_neg h₃]
    refine (ih (by simp) (a ++ [c])).trans ?_
    simp [keep, Function.comp_def]

/-- The block that is opened at a place. -/
theorem blockEnd?_eq (a s : Text) : blockEnd? (a ++ '\x7b' :: s) none 0 (size a)
    = .ok ((Style.blockEnd? .plain 0 s).map fun (inner, _) => size (a ++ '\x7b' :: inner)) := by
  have hopen := getElem?_ascii (a := a) (s := s) (c := '\x7b') rfl
  have hfirst : blockEnd? (a ++ '\x7b' :: s) none 0 (size a)
      = blockEnd? (a ++ ['\x7b'] ++ s) none 1 (size (a ++ ['\x7b'])) := by
    have hshape : a ++ '\x7b' :: s = a ++ ['\x7b'] ++ s := by simp
    rw [blockEnd?.eq_def, size_concat rfl, ← hshape]
    split
    · next hnone => cases hopen.symm.trans hnone
    · next b hb =>
      obtain rfl : octet '\x7b' = b := Option.some.inj (hopen.symm.trans hb)
      rfl
  refine hfirst.trans ((resume_eq .plain (by simp) 0 s (a ++ ['\x7b'])).trans ?_)
  simp

/-! ## Sheets -/

/-- The octet at a place is passed over between nodes if the character there is. -/
theorem exists_first (a : Text) (c : Char) (s : Text) : ∃ o, (ofText (a ++ c :: s))[size a]? = some o
    ∧ (isBlankOctet o || o == octet '\x7d') = (isAsciiBlank c || c == '\x7d') := by
  obtain ⟨o, ho, hiff⟩ := exists_here a c s
  refine ⟨o, ho, ?_⟩
  have hbeq {d : Char} (hd : isAscii d = true) : (o == octet d) = (c == d) := by
    rw [Bool.eq_iff_iff, beq_iff_eq, beq_iff_eq]
    exact hiff d hd
  rw [isBlankOctet, isAsciiBlank, hbeq rfl, hbeq rfl, hbeq rfl, hbeq rfl, hbeq rfl, hbeq rfl]

variable {n : Nat}

theorem parse_skip (hc : (isAsciiBlank c || c == '\x7d') = true) :
    parse (n + 1) (a ++ c :: s) (size a) = parse n (a ++ [c] ++ s) (size (a ++ [c])) := by
  obtain ⟨o, ho, hskip⟩ := exists_first a c s
  have hascii : isAscii c = true := by
    rcases Bool.or_eq_true_iff.1 hc with hc | hc
    · simp only [isAsciiBlank, Bool.or_eq_true, beq_iff_eq] at hc
      rcases hc with (((rfl | rfl) | rfl) | rfl) | rfl <;> rfl
    · rw [beq_iff_eq.1 hc]
      rfl
  have hshape : a ++ c :: s = a ++ [c] ++ s := by simp
  rw [parse, ho]
  simp only [hskip, hc, if_true]
  rw [hshape, size_concat hascii]

/-- A text in front of which a block stands. -/
theorem eq_of_block {prelude body inner rest : Text}
    (hprelude : Style.preludeEnd? none 0 s = some (prelude, .block, body))
    (hbody : Style.blockEnd? .plain 0 body = some (inner, rest)) :
    s = prelude ++ '\x7b' :: inner ++ ['\x7d'] ++ rest := by
  rw [preludeEnd?_eq_some hprelude, blockEnd?_eq_some hbody, PreludeEnd.char]
  simp

section

variable (hc : (isAsciiBlank c || c == '\x7d') = false)

include hc

theorem parse_comment {body : Text} (hafter : after? "/*" (c :: s) = some body) :
    parse (n + 1) (a ++ c :: s) (size a) = (do
      let stop ← commentEnd (a ++ c :: s) (size a)
      let comment ← slice (a ++ c :: s) (size a) stop
      return .raw comment :: (← parse n (a ++ c :: s) stop)) := by
  obtain ⟨o, ho, hskip⟩ := exists_first a c s
  have hbegins : startsWith (c :: s) "/*" = true := by rw [startsWith, hafter]; rfl
  rw [parse, ho]
  simp only [hskip, hc, Bool.false_eq_true, if_false]
  rw [slice_end]
  simp only [bind, Except.bind, hbegins, if_true]

theorem parse_prelude (hafter : after? "/*" (c :: s) = none) :
    parse (n + 1) (a ++ c :: s) (size a) =
      match Style.preludeEnd? none 0 (c :: s) with
      | none => .ok (if (trim (c :: s)).isEmpty then [] else [.raw (trim (c :: s))])
      | some (prelude, .statement, _) => do
        return .raw (trim prelude ++ [';']) :: (← parse n (a ++ c :: s) (size (a ++ prelude) + 1))
      | some (prelude, .block, _) => do
        match ← blockEnd? (a ++ c :: s) none 0 (size (a ++ prelude)) with
        | none => return [.raw (trim (c :: s))]
        | some close =>
          let inner ← slice (a ++ c :: s) (size (a ++ prelude) + 1) close
          let node ← match trim prelude with
            | '@' :: name =>
              if groupNames.contains (atRuleName name) then
                pure (Node.group (trim prelude) (← parse n inner 0))
              else pure (Node.raw (trim (← slice (a ++ c :: s) (size a) (close + 1))))
            | prelude => pure (Node.rule ⟨splitSelectors prelude, oneLine inner⟩)
          return node :: (← parse n (a ++ c :: s) (close + 1)) := by
  obtain ⟨o, ho, hskip⟩ := exists_first a c s
  have hbegins : startsWith (c :: s) "/*" = false := by rw [startsWith, hafter]; rfl
  have hprelude : preludeEnd? (ofText (a ++ c :: s)) none 0 (size a) = _ :=
    preludeEnd?_eq none (by simp) 0 (c :: s) a
  rw [parse, ho]
  simp only [hskip, hc, Bool.false_eq_true, if_false]
  rw [slice_end]
  simp only [bind, Except.bind, hbegins, Bool.false_eq_true, if_false, hprelude]
  cases hfound : Style.preludeEnd? none 0 (c :: s) with
  | none => rfl
  | some found =>
    obtain ⟨prelude, stop, rest⟩ := found
    have hslice : slice (a ++ c :: s) (size a) (size (a ++ prelude)) = .ok prelude := by
      rw [preludeEnd?_eq_some hfound, size_append]
      exact slice_append a prelude _
    cases stop with
    | statement => simp only [Option.map_some, hslice, PreludeEnd.char, if_true]
    | block =>
      have hne : octet '\x7b' ≠ octet ';' := by decide
      simp only [Option.map_some, hslice, PreludeEnd.char, if_neg hne]

theorem parse_block {prelude body inner rest : Text} (hafter : after? "/*" (c :: s) = none)
    (hprelude : Style.preludeEnd? none 0 (c :: s) = some (prelude, .block, body))
    (hbody : Style.blockEnd? .plain 0 body = some (inner, rest)) :
    parse (n + 1) (a ++ c :: s) (size a) = (do
      let node ← match trim prelude with
        | '@' :: name =>
          if groupNames.contains (atRuleName name) then
            pure (Node.group (trim prelude) (← parse n inner 0))
          else pure (Node.raw (trim (prelude ++ '\x7b' :: inner ++ ['\x7d'])))
        | prelude => pure (Node.rule ⟨splitSelectors prelude, oneLine inner⟩)
      return node :: (← parse n (a ++ c :: s) (size (a ++ (prelude ++ '\x7b' :: inner ++ ['\x7d']))))) := by
  have hopen : size ['\x7b'] = 1 := rfl
  have hclose : size ['\x7d'] = 1 := rfl
  have hshape : c :: s = prelude ++ '\x7b' :: body := preludeEnd?_eq_some hprelude
  have hends : body = inner ++ '\x7d' :: rest := blockEnd?_eq_some hbody
  have hend : blockEnd? (a ++ c :: s) none 0 (size (a ++ prelude))
      = .ok (some (size (a ++ prelude ++ '\x7b' :: inner))) := by
    have hblock := blockEnd?_eq (a ++ prelude) body
    rwa [List.append_assoc a, ← hshape, hbody] at hblock
  have hinner : slice (a ++ c :: s) (size (a ++ prelude) + 1) (size (a ++ prelude ++ '\x7b' :: inner))
      = .ok inner := by
    have hslice := slice_append (a ++ prelude ++ ['\x7b']) inner ('\x7d' :: rest)
    rw [← hends, ← size_append, size_append _ ['\x7b'], hopen] at hslice
    simpa [hshape] using hslice
  have hwhole : slice (a ++ c :: s) (size a) (size (a ++ (prelude ++ '\x7b' :: inner ++ ['\x7d'])))
      = .ok (prelude ++ '\x7b' :: inner ++ ['\x7d']) := by
    rw [eq_of_block hprelude hbody, size_append]
    exact slice_append a (prelude ++ '\x7b' :: inner ++ ['\x7d']) rest
  have hbehind : size (a ++ prelude ++ '\x7b' :: inner) + 1
      = size (a ++ (prelude ++ '\x7b' :: inner ++ ['\x7d'])) := by
    rw [← List.append_assoc, size_append _ ['\x7d'], hclose, List.append_assoc]
  rw [parse_prelude hc hafter, hprelude]
  simp only [bind, Except.bind, hend, hinner, hbehind]
  simp only [hwhole]

end

theorem size_pos (h : t ≠ []) : 0 < size t := by
  obtain ⟨c, t, rfl⟩ := List.exists_cons_of_ne_nil h
  have := c.utf8Size_pos
  rw [size_cons]
  omega

/-- Behind what has been read, the rest is read in a round less. -/
theorem parse_rest {front rest : Text} {sheet : Sheet} (hne : front ≠ []) (h : s = front ++ rest)
    (hn : size s < n + 1)
    (hrest : ∀ {n : Nat} (a : Text), size rest < n → parse n (a ++ rest) (size a) = .ok sheet)
    (a : Text) : parse n (a ++ s) (size (a ++ front)) = .ok sheet := by
  have hpos := size_pos hne
  subst h
  rw [size_append] at hn
  rw [← List.append_assoc]
  exact hrest (a ++ front) (by omega)

/-- Octet by octet the sheet is read that is read character by character. -/
theorem parse_append (a s : Text) (hn : size s < n) :
    parse n (a ++ s) (size a) = .ok (Sheet.parse s) := by
  have hstatement : size [';'] = 1 := rfl
  fun_induction Sheet.parse s generalizing a n with
  | case1 =>
    obtain ⟨n, rfl⟩ := Nat.exists_eq_add_of_lt hn
    rw [parse, getElem?_end (a ++ []) (by simp)]
    rfl
  | case2 c s hc ih =>
    obtain ⟨n, rfl⟩ := Nat.exists_eq_add_of_lt hn
    have hrest := parse_rest (List.cons_ne_nil c []) (List.singleton_append.symm) hn ih a
    rwa [parse_skip hc, List.append_assoc, List.singleton_append]
  | case3 c s hc body hafter comment rest hcut _ ih =>
    obtain ⟨n, rfl⟩ := Nat.exists_eq_add_of_lt hn
    have hshape : c :: s = "/*" ++ comment ++ "*/" ++ rest := by
      rw [after?_eq_some.1 hafter, cut?_eq_some hcut]
      simp
    have hnode : (c :: s).take (s.length + 1 - rest.length) = "/*" ++ comment ++ "*/" := by
      have hlength : s.length + 1 - rest.length = ("/*" ++ comment ++ "*/" : Text).length := by
        have := congrArg List.length hshape
        simp at this ⊢
        omega
      rw [hshape, hlength, List.take_left]
    have hstop : commentEnd (a ++ c :: s) (size a) = .ok (size (a ++ ("/*" ++ comment ++ "*/"))) := by
      have hstop := commentEnd_eq a body
      rw [hcut, List.append_assoc a, ← after?_eq_some.1 hafter] at hstop
      rw [hstop]
      simp
    have hslice : slice (a ++ c :: s) (size a) (size (a ++ ("/*" ++ comment ++ "*/")))
        = .ok ("/*" ++ comment ++ "*/") := by
      rw [hshape, size_append]
      exact slice_append a ("/*" ++ comment ++ "*/") rest
    have hrest := parse_rest (by simp) hshape hn ih a
    rw [parse_comment (Bool.eq_false_iff.2 hc) hafter, hstop, hnode]
    simp only [bind, Except.bind, hslice, hrest]
    rfl
  | case4 c s hc body hafter hcut =>
    obtain ⟨n, rfl⟩ := Nat.exists_eq_add_of_lt hn
    have hstop : commentEnd (a ++ c :: s) (size a) = .ok (size (a ++ c :: s)) := by
      have hstop := commentEnd_eq a body
      rwa [hcut, List.append_assoc a, ← after?_eq_some.1 hafter] at hstop
    have hrest : parse (size (c :: s) + n) (a ++ c :: s) (size (a ++ c :: s)) = .ok [] := by
      have hpos := size_pos (List.cons_ne_nil c s)
      obtain ⟨k, hk⟩ := Nat.exists_eq_add_of_lt (Nat.lt_add_right n hpos)
      rw [hk, parse, getElem?_end _ le_rfl]
      rfl
    rw [parse_comment (Bool.eq_false_iff.2 hc) hafter, hstop]
    simp only [bind, Except.bind, slice_end, hrest]
    rfl
  | case5 c s hc ha hprelude htrim =>
    obtain ⟨n, rfl⟩ := Nat.exists_eq_add_of_lt hn
    rw [parse_prelude (Bool.eq_false_iff.2 hc) ha, hprelude, htrim]
    rfl
  | case6 c s hc ha hprelude htrim =>
    obtain ⟨n, rfl⟩ := Nat.exists_eq_add_of_lt hn
    rw [parse_prelude (Bool.eq_false_iff.2 hc) ha, hprelude]
    simp only [List.isEmpty_iff, if_neg htrim]
  | case7 c s hc ha prelude rest hprelude _ ih =>
    obtain ⟨n, rfl⟩ := Nat.exists_eq_add_of_lt hn
    have hshape : c :: s = prelude ++ [';'] ++ rest := by
      rw [preludeEnd?_eq_some hprelude, List.append_assoc]
      rfl
    have hrest := parse_rest (by simp) hshape hn ih a
    rw [← List.append_assoc, size_append (a ++ prelude), hstatement] at hrest
    rw [parse_prelude (Bool.eq_false_iff.2 hc) ha, hprelude]
    simp only [bind, Except.bind, hrest]
    rfl
  | case8 c s hc ha prelude body hprelude hbody =>
    obtain ⟨n, rfl⟩ := Nat.exists_eq_add_of_lt hn
    have hend : blockEnd? (a ++ c :: s) none 0 (size (a ++ prelude)) = .ok none := by
      have hblock := blockEnd?_eq (a ++ prelude) body
      have hshape : c :: s = prelude ++ '\x7b' :: body := preludeEnd?_eq_some hprelude
      rwa [List.append_assoc a, ← hshape, hbody] at hblock
    rw [parse_prelude (Bool.eq_false_iff.2 hc) ha, hprelude]
    simp only [bind, Except.bind, hend]
    rfl
  | case9 c s hc ha prelude body hprelude inner rest hbody _ name hname hgroup ihc ih =>
    obtain ⟨n, rfl⟩ := Nat.exists_eq_add_of_lt hn
    have hshape := eq_of_block hprelude hbody
    have hinner : size inner < size (c :: s) + n := by
      have hbrace : ('\x7b').utf8Size = 1 := utf8Size_eq_one rfl
      rw [hshape]
      simp [hbrace]
      omega
    have hrest := parse_rest (by simp) hshape hn ih a
    have hchildren := ihc [] hinner
    rw [List.nil_append, size_nil] at hchildren
    rw [parse_block (Bool.eq_false_iff.2 hc) ha hprelude hbody, hname]
    simp only [bind, Except.bind, pure, Except.pure, if_pos hgroup, hrest, hchildren]
  | case10 c s hc ha prelude body hprelude inner rest hbody _ name hname hgroup ih =>
    obtain ⟨n, rfl⟩ := Nat.exists_eq_add_of_lt hn
    have hshape := eq_of_block hprelude hbody
    have hrest := parse_rest (by simp) hshape hn ih a
    rw [parse_block (Bool.eq_false_iff.2 hc) ha hprelude hbody, hname]
    simp only [bind, Except.bind, pure, Except.pure, if_neg hgroup, hrest]
  | case11 c s hc ha prelude body hprelude inner rest hbody _ hname ih =>
    obtain ⟨n, rfl⟩ := Nat.exists_eq_add_of_lt hn
    have hshape := eq_of_block hprelude hbody
    have hrest := parse_rest (by simp) hshape hn ih a
    rw [parse_block (Bool.eq_false_iff.2 hc) ha hprelude hbody]
    split
    · next name h => exact absurd h (hname name)
    · simp only [bind, Except.bind, pure, Except.pure, hrest]

/-- Reading a sheet octet by octet ends, within as many rounds as there are octets and one more, and
without a fault: no slice is out of range or cuts a character, and no depth goes below zero. -/
theorem parse_eq (css : Text) (hn : size css < n) : parse n css 0 = .ok (Sheet.parse css) :=
  parse_append [] css hn

end Octets

/-- A sheet is read to its end, without a fault, whatever stands in it, and nothing of it is lost: written
again, it differs from the text only by blanks, commas and closing braces. -/
theorem read_whole (css : Text) : Octets.parse (Octets.size css + 1) css 0 = .ok (Sheet.parse css)
    ∧ ink (Sheet.parse css).render = ink css :=
  ⟨Octets.parse_eq css (Nat.lt_succ_self _), Sheet.ink_render_parse css⟩

end WidgetCompiler.Style
