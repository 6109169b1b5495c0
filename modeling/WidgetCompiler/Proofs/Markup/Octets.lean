import WidgetCompiler.Proofs.Markup.StartTags
import WidgetCompiler.Proofs.Style.Octets
import WidgetCompiler.Proofs.Text.AsciiCase

/-!
# Reading start tags octet by octet

Markup is stored as the octets of its characters, and here its start tags are read by places in them.  The
reader looks at one octet after the other, and what it has found it cuts out between two places.  A cut
fails where a place is out of range or within a character; such a reading ends with a `Fault`.

Main statement: on no markup there is a fault, and what is read of a tag is what `readTag?` reads of it
character by character (`reads_readTag?`).  Beyond that the places are known at which each attribute
stands: in their order, without overlap, between the name and the `>` (`Placed`).

The reason is that the reader stops at ASCII characters only.  Its tests do not tell the other characters
from each other, and so they do not tell one octet of such a character from the next
(`IsAsciiTest.charOf_eq`).
-/

namespace WidgetCompiler.Markup.Octets

open Text
open Style.Octets (ofText octet size Fault exists_here)

/-! ## The reader -/

/-- The character whose code is an octet. -/
def charOf (b : UInt8) : Char := Char.ofNat b.toNat

/-- The first place from the given one on whose octet `p` does not pick. -/
def skip (p : Char → Bool) (octets : List UInt8) (i : Nat) : Nat :=
  i + ((octets.drop i).takeWhile fun b => p (charOf b)).length

/-- An attribute and the places between which it stands. -/
structure Attribute extends RawAttribute where
  start : Nat
  stop : Nat
deriving DecidableEq, Repr

/-- A start tag and the places between which it stands. -/
structure Tag where
  /-- The name, in small letters. -/
  name : Text
  /-- The name as it is written. -/
  rawName : Text
  start : Nat
  stop : Nat
  attributes : List Attribute
  selfClosing : Bool
deriving DecidableEq, Repr

/-- The place behind a value that begins at a place; in quotes it has to be closed. -/
def valueStop? (markup : Text) (i : Nat) : Except Fault (Option Nat) :=
  match (ofText markup)[i]? with
  | none => return some i
  | some b =>
    if b = octet '"' ∨ b = octet '\'' then do
      let value ← Style.Octets.slice markup (i + 1) (size markup)
      return (cutAt? (· == charOf b) value).map fun (inner, _) => i + 1 + size inner + 1
    else return some (skip (fun c => !(isAsciiBlank c || c == '>')) (ofText markup) i)

/-- The place behind the value of an attribute, given the place behind its name.  There need not be a
value. -/
def valueEnd? (markup : Text) (i : Nat) : Except Fault (Option Nat) :=
  let j := skip isAsciiBlank (ofText markup) i
  if (ofText markup)[j]? = some (octet '=') then
    valueStop? markup (skip isAsciiBlank (ofText markup) (j + 1))
  else return some i

/-- What a tag is read into from the place behind its name on, in at most so many rounds: the attributes,
whether the tag closes itself, and the place behind the tag. -/
def readAttributes? (markup : Text) : Nat → Nat → Except Fault (Option (List Attribute × Bool × Nat))
  | 0, _ => .error .rounds
  | n + 1, i =>
    let octets := ofText markup
    let i := skip isAsciiBlank octets i
    match octets[i]? with
    | none => return none
    | some b =>
      if b = octet '>' then return some ([], false, i + 1)
      else if b = octet '/' ∧ octets[i + 1]? = some (octet '>') then return some ([], true, i + 2)
      else if b = octet '/' ∨ b = octet '"' ∨ b = octet '\'' ∨ b = octet '=' then
        readAttributes? markup n (i + 1)
      else do
        let nameStop := skip isAttributeNamePart octets i
        let name ← Style.Octets.slice markup i nameStop
        match ← valueEnd? markup nameStop with
        | none => return none
        | some stop =>
          let raw ← Style.Octets.slice markup i stop
          return (← readAttributes? markup n stop).map fun (as, closing, behind) =>
            (⟨⟨lowerAscii name, raw⟩, i, stop⟩ :: as, closing, behind)

/-- The tag whose `<` stands at a place, read in at most so many rounds. -/
def readTag? (markup : Text) (n start : Nat) : Except Fault (Option Tag) := do
  let nameStop := skip isTagNamePart (ofText markup) (start + 1)
  let rawName ← Style.Octets.slice markup (start + 1) nameStop
  return (← readAttributes? markup n nameStop).map fun (attributes, closing, stop) =>
    ⟨lowerAscii rawName, rawName, start, stop, attributes, closing⟩

/-! ## Tests of octets -/

theorem toNat_charOf (b : UInt8) : (charOf b).toNat = b.toNat := by
  have hb := b.toNat_lt
  have hvalid : b.toNat.isValidChar := .inl (by omega)
  rw [charOf, Char.ofNat, dif_pos hvalid]
  rfl

theorem charOf_octet {c : Char} (h : isAscii c = true) : charOf (octet c) = c := by
  rw [charOf, Style.Octets.toNat_octet h, Char.ofNat_toNat]

theorem octet_charOf (b : UInt8) : octet (charOf b) = b := by
  rw [octet, toNat_charOf, UInt8.ofNat_toNat]

/-- The test does not tell characters from each other that are not ASCII. -/
def IsAsciiTest (p : Char → Bool) : Prop :=
  ∀ c d, isAscii c = false → isAscii d = false → p c = p d

/-- Such a test says of each octet of a character what it says of the character. -/
theorem IsAsciiTest.charOf_eq {p : Char → Bool} (hp : IsAsciiTest p) {c : Char} {b : UInt8}
    (hb : b ∈ String.utf8EncodeChar c) : p (charOf b) = p c := by
  cases h : isAscii c with
  | true =>
    rw [Style.Octets.utf8EncodeChar_ascii h, List.mem_singleton] at hb
    rw [hb, charOf_octet h]
  | false =>
    refine hp _ _ (Bool.eq_false_iff.2 fun hascii => ?_) h
    exact Style.Octets.ne_octet_of_mem h hb hascii (octet_charOf b).symm

/-- A test that picks only ASCII characters. -/
theorem isAsciiTest_of_imp {p : Char → Bool} (h : ∀ c, p c = true → isAscii c = true) :
    IsAsciiTest p := by
  have hfalse (c : Char) (hc : isAscii c = false) : p c = false :=
    Bool.eq_false_iff.2 fun hp => Bool.false_ne_true (hc.symm.trans (h c hp))
  intro c d hc hd
  rw [hfalse c hc, hfalse d hd]

theorem IsAsciiTest.not {p : Char → Bool} (hp : IsAsciiTest p) : IsAsciiTest fun c => !p c :=
  fun c d hc hd => congrArg (!·) (hp c d hc hd)

theorem isAscii_of_isAsciiBlank {c : Char} (h : isAsciiBlank c = true) : isAscii c = true := by
  simp only [isAsciiBlank, Bool.or_eq_true, beq_iff_eq] at h
  rcases h with (((rfl | rfl) | rfl) | rfl) | rfl <;> rfl

theorem isAsciiTest_isAsciiBlank : IsAsciiTest isAsciiBlank :=
  isAsciiTest_of_imp fun _ => isAscii_of_isAsciiBlank

theorem isAsciiTest_isTagNamePart : IsAsciiTest isTagNamePart := by
  refine isAsciiTest_of_imp fun c hc => ?_
  simp only [isTagNamePart, Bool.or_eq_true, beq_iff_eq] at hc
  rcases hc with ((hc | rfl) | rfl) | rfl
  · exact isAscii_of_isAlphanum hc
  all_goals rfl

theorem isAsciiTest_isAlpha : IsAsciiTest Char.isAlpha :=
  isAsciiTest_of_imp fun _ hc => isAscii_of_isAlphanum (isAlphanum_of_isAlpha hc)

theorem isAsciiTest_isAttributeNamePart : IsAsciiTest isAttributeNamePart := by
  refine IsAsciiTest.not (isAsciiTest_of_imp fun c hc => ?_)
  simp only [Bool.or_eq_true, beq_iff_eq] at hc
  rcases hc with ((hc | rfl) | rfl) | rfl
  · exact isAscii_of_isAsciiBlank hc
  all_goals rfl

theorem isAsciiTest_unquoted : IsAsciiTest fun c => !(isAsciiBlank c || c == '>') := by
  refine IsAsciiTest.not (isAsciiTest_of_imp fun c hc => ?_)
  simp only [Bool.or_eq_true, beq_iff_eq] at hc
  rcases hc with hc | rfl
  · exact isAscii_of_isAsciiBlank hc
  · rfl

variable {a s t inner gap rest : Text} {c : Char} {p : Char → Bool} {n : Nat}

theorem exists_utf8EncodeChar (c : Char) : ∃ b bs, String.utf8EncodeChar c = b :: bs := by
  refine List.exists_cons_of_length_pos ?_
  rw [String.length_utf8EncodeChar]
  exact c.utf8Size_pos

/-- Passing over octets is passing over characters. -/
theorem skip_append (hp : IsAsciiTest p) (a s : Text) :
    skip p (ofText (a ++ s)) (size a) = size (a ++ s.takeWhile p) := by
  have hrun : ((ofText s).takeWhile fun b => p (charOf b)).length = size (s.takeWhile p) := by
    induction s with
    | nil => rfl
    | cons c s ih =>
      rw [Style.Octets.ofText_cons]
      cases hc : p c with
      | true =>
        have hall : ∀ b ∈ String.utf8EncodeChar c, p (charOf b) = true := fun b hb =>
          (hp.charOf_eq hb).trans hc
        rw [List.takeWhile_append_of_pos hall, List.length_append, ih, List.takeWhile_cons_of_pos hc,
          Style.Octets.size_cons, String.length_utf8EncodeChar]
      | false =>
        obtain ⟨b, bs, hbs⟩ := exists_utf8EncodeChar c
        have hb : p (charOf b) = false :=
          (hp.charOf_eq (hbs ▸ List.mem_cons_self : b ∈ String.utf8EncodeChar c)).trans hc
        rw [hbs, List.cons_append, List.takeWhile_cons_of_neg (by simp [hb]),
          List.takeWhile_cons_of_neg (by simp [hc])]
        rfl
  have hdrop : (ofText (a ++ s)).drop (size a) = ofText s := by
    rw [Style.Octets.ofText_append]
    exact List.drop_left
  rw [skip, hdrop, hrun, Style.Octets.size_append]

/-- What the octets tell about the character at a place. -/
theorem getElem?_eq_octet_iff (a s : Text) {d : Char} (hd : isAscii d = true) :
    (ofText (a ++ s))[size a]? = some (octet d) ↔ s.head? = some d := by
  cases s with
  | nil => simp [Style.Octets.getElem?_end]
  | cons c s =>
    obtain ⟨b, hb, hiff⟩ := exists_here a c s
    rw [hb, Option.some_inj, hiff d hd]
    simp

/-- What a test says of the octet at a place. -/
theorem any_getElem? (hp : IsAsciiTest p) (a s : Text) :
    ((ofText (a ++ s))[size a]?.any fun b => p (charOf b)) = s.head?.any p := by
  cases s with
  | nil => rw [Style.Octets.getElem?_end _ (by rw [List.append_nil])]; rfl
  | cons c s =>
    have hplace := Style.Octets.getElem?_append a (c :: s) 0
    obtain ⟨b, bs, hbs⟩ := exists_utf8EncodeChar c
    have hb : p (charOf b) = p c := hp.charOf_eq (hbs ▸ List.mem_cons_self)
    rw [Nat.add_zero, Style.Octets.ofText_cons, hbs] at hplace
    rw [hplace]
    exact hb

/-- The place at which a rest of a text begins. -/
def placeOf (markup rest : Text) : Nat := size markup - size rest

@[simp] theorem placeOf_append (a rest : Text) : placeOf (a ++ rest) rest = size a := by
  rw [placeOf, Style.Octets.size_append, Nat.add_sub_cancel]

/-- Behind an ASCII character. -/
theorem size_succ (hc : isAscii c = true) (a : Text) : size a + 1 = size (a ++ [c]) :=
  (Style.Octets.size_concat hc a).symm

theorem size_lt_cons (c : Char) (s : Text) : size s < size (c :: s) := by
  have := c.utf8Size_pos
  rw [Style.Octets.size_cons]
  omega

/-! ## Values -/

theorem isAscii_quote (hc : c = '"' ∨ c = '\'') : isAscii c = true := by
  rcases hc with rfl | rfl <;> rfl

/-- The value in quotes that begins at a place. -/
theorem valueStop?_quoted (hc : c = '"' ∨ c = '\'') (a s : Text) :
    valueStop? (a ++ c :: s) (size a)
      = .ok ((cutAt? (· == c) s).map fun (_, rest) => placeOf (a ++ c :: s) rest) := by
  have hascii := isAscii_quote hc
  obtain ⟨b, hb, hiff⟩ := exists_here a c s
  obtain rfl : b = octet c := (hiff c hascii).2 rfl
  have hquote : octet c = octet '"' ∨ octet c = octet '\'' := hc.imp (congrArg octet) (congrArg octet)
  have hshape : a ++ c :: s = a ++ [c] ++ s := List.append_cons a c s
  have hslice : Style.Octets.slice (a ++ c :: s) (size a + 1) (size (a ++ c :: s)) = .ok s := by
    rw [size_succ hascii, hshape, Style.Octets.slice_end]
  rw [valueStop?, hb]
  simp only [if_pos hquote, hslice, charOf_octet hascii, bind, Except.bind, pure, Except.pure]
  congr 1
  cases hcut : cutAt? (· == c) s with
  | none => rfl
  | some cut =>
    obtain ⟨inner, rest⟩ := cut
    obtain ⟨d, hd, rfl, -⟩ := cutAt?_eq_some hcut
    obtain rfl : d = c := beq_iff_eq.1 hd
    have hrest : a ++ d :: (inner ++ d :: rest) = a ++ d :: inner ++ [d] ++ rest := by simp
    rw [Option.map_some, Option.map_some, hrest, placeOf_append, size_succ hascii, ← Style.Octets.size_append,
      size_succ hascii, List.append_assoc a, List.singleton_append]

/-- A value without quotes. -/
theorem valueStop?_unquoted (hs : ∀ c ∈ s.head?, ¬ (c = '"' ∨ c = '\'')) (a : Text) :
    valueStop? (a ++ s) (size a) = .ok (some (placeOf (a ++ s)
      (s.dropWhile fun c => !(isAsciiBlank c || c == '>')))) := by
  cases s with
  | nil =>
    rw [valueStop?, Style.Octets.getElem?_end _ (by simp)]
    simp only [List.dropWhile_nil, placeOf_append]
    rfl
  | cons c s =>
    obtain ⟨b, hb, hiff⟩ := exists_here a c s
    have hquote : ¬ (b = octet '"' ∨ b = octet '\'') := by
      rw [hiff '"' rfl, hiff '\'' rfl]
      exact hs c rfl
    have hrest := placeOf_append (a ++ (c :: s).takeWhile fun c => !(isAsciiBlank c || c == '>'))
      ((c :: s).dropWhile fun c => !(isAsciiBlank c || c == '>'))
    rw [List.append_assoc, List.takeWhile_append_dropWhile] at hrest
    rw [valueStop?, hb, hrest, ← skip_append isAsciiTest_unquoted]
    simp only [if_neg hquote]
    rfl

/-- Behind the value of an attribute the octets lead to where the characters do. -/
theorem valueEnd?_eq (a s : Text) :
    valueEnd? (a ++ s) (size a) = .ok ((afterValue? s).map (placeOf (a ++ s))) := by
  have hs : s.takeWhile isAsciiBlank ++ s.dropWhile isAsciiBlank = s :=
    List.takeWhile_append_dropWhile
  have hsign := getElem?_eq_octet_iff (a ++ s.takeWhile isAsciiBlank) (s.dropWhile isAsciiBlank)
    (d := '=') rfl
  rw [List.append_assoc, hs] at hsign
  simp only [valueEnd?, skip_append isAsciiTest_isAsciiBlank, hsign, afterValue?]
  split
  · next h =>
    obtain ⟨v, hv⟩ := List.head?_eq_some_iff.1 h
    -- the text up to the value, and the value with all that follows
    generalize hfront : a ++ s.takeWhile isAsciiBlank ++ ['='] ++ v.takeWhile isAsciiBlank = front
    have hshape : a ++ s = front ++ v.dropWhile isAsciiBlank := by
      conv_lhs => rw [← hs, hv]
      simp [← hfront]
    have hplace : skip isAsciiBlank (ofText (a ++ s)) (size (a ++ s.takeWhile isAsciiBlank) + 1)
        = size front := by
      have hsplit : a ++ s = a ++ s.takeWhile isAsciiBlank ++ ['='] ++ v := by
        rw [hshape, ← hfront, List.append_assoc _ (v.takeWhile isAsciiBlank),
          List.takeWhile_append_dropWhile]
      rw [size_succ (c := '=') rfl, hsplit, skip_append isAsciiTest_isAsciiBlank, hfront]
    rw [hplace, hshape, hv]
    simp only
    split
    · next r hr =>
      rw [hr, valueStop?_quoted (.inl rfl), Option.map_map]
      rfl
    · next r hr =>
      rw [hr, valueStop?_quoted (.inr rfl), Option.map_map]
      rfl
    · next hdouble hsingle =>
      rw [valueStop?_unquoted, Option.map_some]
      rintro c hc
      obtain ⟨r, hr⟩ := List.head?_eq_some_iff.1 hc
      rintro (rfl | rfl)
      · exact hdouble r hr
      · exact hsingle r hr
  · next h =>
    split
    · next v hv => exact absurd (by rw [hv]; rfl) h
    · rw [Option.map_some, placeOf_append]
      rfl

/-! ## Attributes -/

/-- Attributes that stand in a text behind `front`, in their order and without overlap. -/
inductive Placed : Text → List Attribute → Text → Prop
  | nil (front inner : Text) : Placed front [] inner
  | cons {front gap name raw inner : Text} {as : List Attribute} : raw ≠ [] →
      Placed (front ++ gap ++ raw) as inner →
      Placed front (⟨⟨name, raw⟩, size (front ++ gap), size (front ++ gap ++ raw)⟩ :: as)
        (gap ++ raw ++ inner)

/-- What is read of a tag behind `front` by characters is what is read of it by octets. -/
inductive Reads (front : Text) : Text → Option (List RawAttribute × Bool × Text) →
    Option (List Attribute × Bool × Nat) → Prop
  | nothing (s : Text) : Reads front s none none
  | attributes {inner rest : Text} {as : List Attribute} {closing : Bool} : Placed front as inner →
      Reads front (inner ++ '>' :: rest) (some (as.map (·.toRawAttribute), closing, rest))
        (some (as, closing, size (front ++ inner ++ ['>'])))

/-- Before the attributes there may be something else. -/
theorem Placed.behind {as : List Attribute} (h : Placed (a ++ gap) as inner) :
    Placed a as (gap ++ inner) := by
  cases h with
  | nil => exact .nil a _
  | @cons _ gap' name raw inner as hraw h =>
    have hcons : Placed a
        (⟨⟨name, raw⟩, size (a ++ (gap ++ gap')), size (a ++ (gap ++ gap') ++ raw)⟩ :: as)
        (gap ++ gap' ++ raw ++ inner) := .cons hraw (by simpa using h)
    simpa using hcons

theorem Reads.behind {read : Option (List RawAttribute × Bool × Text)}
    {found : Option (List Attribute × Bool × Nat)} (h : Reads (a ++ gap) s read found) :
    Reads a (gap ++ s) read found := by
  cases h with
  | nothing => exact .nothing _
  | @attributes inner rest as closing h =>
    have hsome : Reads a (gap ++ inner ++ '>' :: rest)
        (some (as.map (·.toRawAttribute), closing, rest))
        (some (as, closing, size (a ++ (gap ++ inner) ++ ['>']))) := .attributes h.behind
    simpa using hsome

theorem readAttributes?_nil (a : Text) (n : Nat) :
    readAttributes? (a ++ []) (n + 1) (size a) = .ok none := by
  simp only [readAttributes?, skip_append isAsciiTest_isAsciiBlank, List.takeWhile_nil]
  rw [Style.Octets.getElem?_end _ le_rfl]
  rfl

/-- Blanks are passed over. -/
theorem readAttributes?_blank (hc : isAsciiBlank c = true) (a s : Text) (n : Nat) :
    readAttributes? (a ++ c :: s) n (size a) = readAttributes? (a ++ [c] ++ s) n (size (a ++ [c])) := by
  have hshape : a ++ c :: s = a ++ [c] ++ s := List.append_cons a c s
  have hskip : skip isAsciiBlank (ofText (a ++ c :: s)) (size a)
      = skip isAsciiBlank (ofText (a ++ [c] ++ s)) (size (a ++ [c])) := by
    rw [skip_append isAsciiTest_isAsciiBlank, skip_append isAsciiTest_isAsciiBlank,
      List.takeWhile_cons_of_pos hc, List.append_assoc, List.singleton_append]
  cases n with
  | zero => rfl
  | succ n =>
    simp only [readAttributes?, hskip]
    rw [hshape]

/-- A text between the places where it begins and where its rest begins. -/
theorem slice_placeOf (a t rest : Text) :
    Style.Octets.slice (a ++ (t ++ rest)) (size a) (placeOf (a ++ (t ++ rest)) rest) = .ok t := by
  rw [← List.append_assoc a, placeOf_append, List.append_assoc, Style.Octets.size_append]
  exact Style.Octets.slice_append a t rest

theorem readAttributes?_cons (hc : isAsciiBlank c = false) (a s : Text) (n : Nat) :
    readAttributes? (a ++ c :: s) (n + 1) (size a)
      = if c = '>' then .ok (some ([], false, size a + 1))
        else if c = '/' ∧ s.head? = some '>' then .ok (some ([], true, size a + 2))
        else if c = '/' ∨ c = '"' ∨ c = '\'' ∨ c = '=' then
          readAttributes? (a ++ c :: s) n (size a + 1)
        else match readAttribute? (c :: s) with
          | none => .ok none
          | some (raw, rest) => do
            let stop := placeOf (a ++ c :: s) rest
            return (← readAttributes? (a ++ c :: s) n stop).map fun (as, closing, behind) =>
              (⟨raw, size a, stop⟩ :: as, closing, behind) := by
  obtain ⟨b, hb, hiff⟩ := exists_here a c s
  have hskip : skip isAsciiBlank (ofText (a ++ c :: s)) (size a) = size a := by
    rw [skip_append isAsciiTest_isAsciiBlank, List.takeWhile_cons_of_neg (by simp [hc]), List.append_nil]
  have hnext : c = '/' ∧ (ofText (a ++ c :: s))[size a + 1]? = some (octet '>')
      ↔ c = '/' ∧ s.head? = some '>' := by
    refine and_congr_right fun hslash => ?_
    subst hslash
    have hshape : a ++ '/' :: s = a ++ ['/'] ++ s := List.append_cons a '/' s
    rw [size_succ (c := '/') rfl, hshape]
    exact getElem?_eq_octet_iff _ _ rfl
  -- the name, and the attribute with its value
  have hname : (c :: s).takeWhile isAttributeNamePart ++ (c :: s).dropWhile isAttributeNamePart = c :: s :=
    List.takeWhile_append_dropWhile
  have hslice := slice_placeOf a ((c :: s).takeWhile isAttributeNamePart)
    ((c :: s).dropWhile isAttributeNamePart)
  have hvalue := valueEnd?_eq (a ++ (c :: s).takeWhile isAttributeNamePart)
    ((c :: s).dropWhile isAttributeNamePart)
  rw [List.append_assoc, hname] at hvalue
  rw [← List.append_assoc, placeOf_append, List.append_assoc, hname] at hslice
  rw [readAttributes?]
  simp only [hskip, hb, hiff '>' rfl, hiff '/' rfl, hiff '"' rfl, hiff '\'' rfl, hiff '=' rfl, hnext,
    skip_append isAsciiTest_isAttributeNamePart, hslice, hvalue, bind, Except.bind]
  cases hafter : afterValue? ((c :: s).dropWhile isAttributeNamePart) with
  | none =>
    have hread : readAttribute? (c :: s) = none := by rw [readAttribute?, hafter]; rfl
    rw [hread]
    rfl
  | some rest =>
    obtain ⟨t, ht⟩ : rest <:+ c :: s :=
      (suffix_of_afterValue? hafter).trans (List.dropWhile_suffix isAttributeNamePart)
    have htake : (c :: s).take ((c :: s).length - rest.length) = t := by
      rw [← ht, List.length_append, Nat.add_sub_cancel, List.take_left]
    have hread : readAttribute? (c :: s)
        = some (⟨lowerAscii ((c :: s).takeWhile isAttributeNamePart), t⟩, rest) := by
      rw [readAttribute?, hafter, Option.map_some, htake]
    have hraw := slice_placeOf a t rest
    rw [ht] at hraw
    rw [hread]
    simp only [Option.map_some, hraw]
    rfl

/-- An attribute is read from what stands before the rest. -/
theorem append_of_readAttribute? {raw : RawAttribute} (h : readAttribute? s = some (raw, rest)) :
    s = raw.raw ++ rest := by
  obtain ⟨t, ht⟩ := (of_readAttribute? h).1
  obtain ⟨r, -, he⟩ := Option.map_eq_some_iff.1 h
  obtain ⟨rfl, rfl⟩ := Prod.mk.inj he
  rw [← ht, List.length_append, Nat.add_sub_cancel, List.take_left]

/-- One attribute before the others. -/
theorem Reads.cons {raw : RawAttribute} {read : Option (List RawAttribute × Bool × Text)}
    {found : Option (List Attribute × Bool × Nat)} (hraw : raw.raw ≠ [])
    (h : Reads (a ++ raw.raw) s read found) :
    Reads a (raw.raw ++ s) (read.map fun (as, closing, rest) => (raw :: as, closing, rest))
      (found.map fun (as, closing, behind) =>
        (⟨raw, size a, size (a ++ raw.raw)⟩ :: as, closing, behind)) := by
  cases h with
  | nothing => exact .nothing _
  | @attributes inner rest as closing h =>
    have hplaced : Placed a (⟨raw, size (a ++ []), size (a ++ [] ++ raw.raw)⟩ :: as)
        ([] ++ raw.raw ++ inner) := .cons hraw (by simpa using h)
    have hsome : Reads a ([] ++ raw.raw ++ inner ++ '>' :: rest)
        (some (raw :: as.map (·.toRawAttribute), closing, rest))
        (some (_, closing, size (a ++ ([] ++ raw.raw ++ inner) ++ ['>']))) := .attributes hplaced
    simpa using hsome

/-- The attributes of a tag are read by octets as they are read by characters. -/
theorem reads_readAttributes? (a : Text) (hn : size s < n) : ∃ found,
    readAttributes? (a ++ s) n (size a) = .ok found ∧ Reads a s (Markup.readAttributes? s) found := by
  fun_induction Markup.readAttributes? s generalizing a n with
  | case1 =>
    obtain ⟨n, rfl⟩ := Nat.exists_eq_add_of_lt hn
    exact ⟨none, readAttributes?_nil a _, .nothing _⟩
  | case2 c s hc ih =>
    obtain ⟨found, hfound, hreads⟩ := ih (a ++ [c]) (Nat.lt_trans (size_lt_cons c s) hn)
    refine ⟨found, ?_, hreads.behind⟩
    rw [readAttributes?_blank hc, hfound]
  | case3 s hblank =>
    obtain ⟨n, rfl⟩ := Nat.exists_eq_add_of_lt hn
    refine ⟨some ([], false, size (a ++ [] ++ ['>'])), ?_, .attributes (.nil a [])⟩
    rw [readAttributes?_cons rfl, if_pos rfl, size_succ (c := '>') rfl, List.append_nil]
  | case4 c s hblank hclose hslash =>
    obtain ⟨n, rfl⟩ := Nat.exists_eq_add_of_lt hn
    have hread := readAttributes?_cons (Bool.eq_false_iff.2 hblank) a s (size (c :: s) + n)
    rw [if_neg hclose, if_pos hslash] at hread
    obtain ⟨rfl, hs⟩ := hslash
    obtain ⟨rest, rfl⟩ := List.head?_eq_some_iff.1 hs
    refine ⟨some ([], true, size (a ++ ['/'] ++ ['>'])), ?_, .attributes (.nil a ['/'])⟩
    rw [hread, ← size_succ (c := '>') rfl, ← size_succ (c := '/') rfl]
  | case5 c s hblank hclose hslash hmark ih =>
    obtain ⟨n, rfl⟩ := Nat.exists_eq_add_of_lt hn
    have hascii : isAscii c = true := by
      rcases hmark with rfl | rfl | rfl | rfl <;> rfl
    have hshape : a ++ c :: s = a ++ [c] ++ s := List.append_cons a c s
    have hlt := size_lt_cons c s
    obtain ⟨found, hfound, hreads⟩ := ih (a ++ [c]) (n := size (c :: s) + n) (by omega)
    refine ⟨found, ?_, hreads.behind⟩
    rw [readAttributes?_cons (Bool.eq_false_iff.2 hblank), if_neg hclose, if_neg hslash, if_pos hmark,
      size_succ hascii, hshape, hfound]
  | case6 c s hblank hclose hslash hmark hread =>
    obtain ⟨n, rfl⟩ := Nat.exists_eq_add_of_lt hn
    refine ⟨none, ?_, .nothing _⟩
    rw [readAttributes?_cons (Bool.eq_false_iff.2 hblank), if_neg hclose, if_neg hslash, if_neg hmark,
      hread]
  | case7 c s hblank hclose hslash hmark raw rest hread hlength ih =>
    obtain ⟨n, rfl⟩ := Nat.exists_eq_add_of_lt hn
    have hsplit := append_of_readAttribute? hread
    have hraw : raw.raw ≠ [] := by
      intro hnil
      have := congrArg List.length hsplit
      rw [hnil, List.nil_append, List.length_cons] at this
      omega
    have hsize : size rest < size (c :: s) := by
      have := Style.Octets.size_pos hraw
      rw [hsplit, Style.Octets.size_append]
      omega
    obtain ⟨found, hfound, hreads⟩ := ih (a ++ raw.raw) (n := size (c :: s) + n) (by omega)
    have hshape : a ++ c :: s = a ++ raw.raw ++ rest := by rw [hsplit, List.append_assoc]
    refine ⟨_, ?_, hsplit ▸ hreads.cons hraw⟩
    rw [readAttributes?_cons (Bool.eq_false_iff.2 hblank), if_neg hclose, if_neg hslash, if_neg hmark,
      hread]
    simp only [hshape, placeOf_append, hfound]
    rfl
  | case8 c s hblank hclose hslash hmark raw rest hread hlength =>
    have hpart : isAttributeNamePart c = true := by
      simp only [not_or] at hmark
      simp [isAttributeNamePart, hblank, hclose, hmark]
    exact absurd (length_of_readAttribute? hpart hread) hlength

/-! ## Tags -/

/-- A name of tags: a letter, and what goes on with a name. -/
def IsTagName (t : Text) : Prop :=
  ∃ c r, t = c :: r ∧ c.isAlpha = true ∧ ∀ d ∈ r, isTagNamePart d = true

/-- The tag stands behind `front`, with `inner` between its name and its end. -/
structure Tag.Stands (front inner : Text) (tag : Tag) : Prop where
  named : IsTagName tag.rawName
  name_eq : tag.name = lowerAscii tag.rawName
  start_eq : tag.start = size front
  stop_eq : tag.stop = size (front ++ '<' :: (tag.rawName ++ inner ++ ['>']))
  placed : Placed (front ++ '<' :: tag.rawName) tag.attributes inner

theorem isTagName_takeWhile (hc : c.isAlpha = true) (s : Text) :
    IsTagName ((c :: s).takeWhile isTagNamePart) := by
  have hpart : isTagNamePart c = true := by
    rw [isTagNamePart, isAlphanum_of_isAlpha hc]
    rfl
  rw [List.takeWhile_cons_of_pos hpart]
  exact ⟨c, _, rfl, hc, fun d hd => List.all_eq_true.1 List.all_takeWhile d hd⟩

/-- A tag is read by octets as it is read by characters. -/
theorem reads_readTag? (a : Text) (hn : size s < n) (hs : s.head?.any Char.isAlpha = true) :
    (Markup.readTag? s = none ∧ readTag? (a ++ '<' :: s) n (size a) = .ok none)
    ∨ ∃ tag inner rest, s = tag.rawName ++ inner ++ '>' :: rest ∧ tag.Stands a inner
      ∧ Markup.readTag? s
        = some (tag.rawName, tag.attributes.map (·.toRawAttribute), tag.selfClosing, rest)
      ∧ readTag? (a ++ '<' :: s) n (size a) = .ok (some tag) := by
  obtain ⟨c, hhead, hc⟩ := (Option.any_eq_true ..).1 hs
  obtain ⟨r, rfl⟩ := List.head?_eq_some_iff.1 hhead
  have hname := isTagName_takeWhile hc r
  have hread : Markup.readTag? (c :: r) = (Markup.readAttributes? ((c :: r).dropWhile isTagNamePart)).map
      fun (as, closing, rest) => ((c :: r).takeWhile isTagNamePart, as, closing, rest) := by
    rw [Markup.readTag?, if_pos hc]
  have hplace := skip_append isAsciiTest_isTagNamePart (a ++ ['<']) (c :: r)
  have hsplit : (c :: r).takeWhile isTagNamePart ++ (c :: r).dropWhile isTagNamePart = c :: r :=
    List.takeWhile_append_dropWhile
  -- the name and what follows it
  generalize (c :: r).takeWhile isTagNamePart = name at hname hread hplace hsplit
  generalize (c :: r).dropWhile isTagNamePart = s at hread hsplit
  rw [← hsplit] at hn hread hplace ⊢
  have hshape : a ++ '<' :: (name ++ s) = a ++ ['<'] ++ (name ++ s) := List.append_cons a '<' (name ++ s)
  have hslice : Style.Octets.slice (a ++ ['<'] ++ (name ++ s)) (size (a ++ ['<']))
      (size (a ++ ['<'] ++ name)) = .ok name := by
    rw [Style.Octets.size_append (a ++ ['<'])]
    exact Style.Octets.slice_append (a ++ ['<']) name s
  have hsize : size s < n := by
    rw [Style.Octets.size_append] at hn
    omega
  obtain ⟨found, hfound, hreads⟩ := reads_readAttributes? (a ++ ['<'] ++ name) hsize
  rw [List.append_assoc _ name] at hfound
  have hoctets : readTag? (a ++ '<' :: (name ++ s)) n (size a)
      = .ok (found.map fun (as, closing, stop) => ⟨lowerAscii name, name, size a, stop, as, closing⟩) := by
    simp only [readTag?, size_succ (c := '<') rfl, hshape, hplace, hslice, hfound, bind, Except.bind]
    rfl
  rw [hread, hoctets]
  generalize Markup.readAttributes? s = read at hreads
  cases hreads with
  | nothing => exact .inl ⟨rfl, rfl⟩
  | @attributes inner rest as closing h =>
    refine .inr ⟨_, inner, rest, (List.append_assoc ..).symm, ?_, rfl, rfl⟩
    exact { named := hname, name_eq := rfl, start_eq := rfl, stop_eq := by simp, placed := by simpa using h }

end WidgetCompiler.Markup.Octets
