import WidgetCompiler.Proofs.Markup.Layout

/-!
# Scanning markup octet by octet

The start tags of markup are looked for at one octet after the other; behind a comment, a tag, and the
text of an element whose content is no markup, the scanner goes on at the place where it ends.  Where it
cuts the markup, the place has to be that of a character, or there is a `Fault`.

Main statement: on every markup the scanner ends without a fault, its tags are those that
`scanStartTags` finds character by character, and they are sound (`scan_sound`).  What the scanner takes
for an end tag are the letters of one (`endTagOpens`).  Where these begin the tag of another name, tags
are found in text that is no markup, so by the reading of documents (`endTagBegins`) there are tags that
are not sound (`not_sound_heading`).

The reason is that each step of the scanner passes over one region of the markup (`Scans.comment`,
`Scans.startTag`), or over one character at which nothing begins (`Scans.skip`).
-/

namespace WidgetCompiler.Markup.Octets

open Text
open Style.Octets (ofText octet size Fault exists_here)

/-! ## The scanner -/

/-- The place behind the comment that begins at a place. -/
def commentStop (markup : Text) (i : Nat) : Except Fault Nat := do
  let body ← Style.Octets.slice markup (i + 4) (size markup)
  return match cut? "-->" body with
    | some (inner, _) => i + 4 + size inner + 3
    | none => size markup

/-- The place behind a tag and behind the text that it holds. -/
def contentStop (markup : Text) (tag : Tag) : Except Fault Nat :=
  if tag.holdsText then do
    let rest ← Style.Octets.slice markup tag.stop (size markup)
    return match cut? ("</" ++ tag.name) (lowerAscii rest) with
      | some (before, _) => tag.stop + size before
      | none => size markup
  else return tag.stop

/-- The start tags from a place on, found in at most so many rounds. -/
def scan (markup : Text) : Nat → Nat → Except Fault (List Tag)
  | 0, _ => .error .rounds
  | n + 1, i =>
    match (ofText markup)[i]? with
    | none => return []
    | some b =>
      if b = octet '<' then do
        let rest ← Style.Octets.slice markup i (size markup)
        if startsWith rest "<!--" then scan markup n (← commentStop markup i)
        else if (ofText markup)[i + 1]?.any fun b => (charOf b).isAlpha then
          match ← readTag? markup n i with
          | none => scan markup n (i + 1)
          | some tag => return tag :: (← scan markup n (← contentStop markup tag))
        else scan markup n (i + 1)
      else scan markup n (i + 1)

/-! ## Small letters -/

variable {a s t rest body inner name : Text} {c : Char} {n : Nat} {tag : Tag}

theorem utf8Size_toLower (c : Char) : c.toLower.utf8Size = c.utf8Size := by
  cases hc : c.isUpper with
  | false => rw [toLower_of_not_isUpper hc]
  | true =>
    have hrange := isUpper_iff.1 hc
    have hlower := toNat_toLower_of_isUpper hc
    have hascii : isAscii c = true := decide_eq_true (by omega)
    have hascii' : isAscii c.toLower = true := decide_eq_true (by omega)
    rw [Style.Octets.utf8Size_eq_one hascii, Style.Octets.utf8Size_eq_one hascii']

theorem size_lowerAscii (t : Text) : size (lowerAscii t) = size t := by
  induction t with
  | nil => rfl
  | cons c t ih =>
    rw [lowerAscii, List.map_cons, Style.Octets.size_cons, utf8Size_toLower, Style.Octets.size_cons, ← ih]
    rfl

/-- The text before an end tag, and the same in small letters. -/
theorem UpTo.lowerAscii (h : UpTo (endTagOpens name) t rest) :
    UpTo (startsWith · ("</" ++ name)) (lowerAscii t) (lowerAscii rest) where
  reached := h.reached.imp_left fun hrest => by rw [hrest]; rfl
  first := by
    rintro y ⟨x, hsplit⟩ hne
    obtain ⟨x, y, rfl, -, rfl⟩ := List.map_eq_append_iff.1 hsplit.symm
    have hfirst := h.first y (List.suffix_append x y) (by rintro rfl; exact hne rfl)
    rwa [endTagOpens, lowerAscii_append] at hfirst

/-- The text before an end tag is what the scanner passes over. -/
theorem upTo_fromEndTag (name s : Text) : ∃ t, s = t ++ fromEndTag name s
    ∧ UpTo (endTagOpens name) t (fromEndTag name s) := by
  induction s with
  | nil => exact ⟨[], rfl, .nil (.inl rfl)⟩
  | cons c s ih =>
    have hopens : endTagOpens name (c :: s) = true
        ↔ lowerAscii ((c :: s).take (name.length + 2)) = '<' :: '/' :: name := by
      rw [endTagOpens, startsWith_iff, List.prefix_iff_eq_take, lowerAscii, lowerAscii, List.map_take, eq_comm]
      rfl
    rw [fromEndTag]
    split
    · next h => exact ⟨[], rfl, .nil (.inr (hopens.2 h))⟩
    · next h =>
      obtain ⟨t, hs, ht⟩ := ih
      refine ⟨c :: t, by rw [List.cons_append, ← hs], .cons ?_ ht⟩
      rw [← hs]
      exact Bool.eq_false_iff.2 fun hyes => h (hopens.1 hyes)

/-- The scanner goes on behind a tag, or behind the text `t` that it holds. -/
theorem contentStop_eq (hstop : tag.stop = size a) (hbare : tag.holdsText = false → t = [])
    (htext : tag.holdsText = true → UpTo (endTagOpens tag.name) t rest) :
    contentStop (a ++ (t ++ rest)) tag = .ok (size (a ++ t)) := by
  cases hholds : tag.holdsText with
  | false =>
    rw [contentStop, if_neg (Bool.eq_false_iff.1 hholds), hbare hholds, List.append_nil, hstop]
    rfl
  | true =>
    have hlower := (htext hholds).lowerAscii
    rw [contentStop, if_pos hholds, hstop, Style.Octets.slice_end]
    simp only [bind, Except.bind, pure, Except.pure]
    cases hcut : cut? ("</" ++ tag.name) (lowerAscii (t ++ rest)) with
    | some cut =>
      obtain ⟨before, behind⟩ := cut
      have hsplit := cut?_eq_some hcut
      rw [lowerAscii_append, List.append_assoc] at hsplit
      obtain rfl := hlower.unique (.of_cut?_eq_some hcut) hsplit
      simp only [size_lowerAscii, Style.Octets.size_append]
    | none =>
      have hall := hlower.unique (.of_cut?_eq_none hcut) (by rw [lowerAscii_append, List.append_nil])
      have hlength := congrArg List.length hall
      rw [length_lowerAscii, length_lowerAscii, List.length_append] at hlength
      obtain rfl := List.eq_nil_of_length_eq_zero (Nat.left_eq_add.1 hlength)
      rw [List.append_nil]

/-! ## Steps of the scanner -/

theorem scan_end (hn : 0 < n) (a : Text) : scan a n (size a) = .ok [] := by
  obtain ⟨n, rfl⟩ := Nat.exists_eq_succ_of_ne_zero hn.ne'
  rw [scan, Style.Octets.getElem?_end _ le_rfl]
  rfl

/-- Octets other than that of `<` are passed over one by one. -/
theorem scan_skip (markup : Text) (k n i : Nat)
    (h : ∀ j < k, ∃ b, (ofText markup)[i + j]? = some b ∧ b ≠ octet '<') :
    scan markup (n + k) i = scan markup n (i + k) := by
  induction k generalizing i with
  | zero => rfl
  | succ k ih =>
    obtain ⟨b, hb, hne⟩ := h 0 (Nat.succ_pos k)
    rw [Nat.add_zero] at hb
    have hrest : ∀ j < k, ∃ b, (ofText markup)[i + 1 + j]? = some b ∧ b ≠ octet '<' := fun j hj => by
      rw [Nat.add_assoc, Nat.add_comm 1 j]
      exact h (j + 1) (Nat.succ_lt_succ hj)
    rw [← Nat.add_assoc, scan, hb]
    simp only [if_neg hne]
    rw [ih (i + 1) hrest, Nat.add_assoc, Nat.add_comm 1 k]

/-- A character other than `<` is passed over. -/
theorem scan_of_ne (hc : c ≠ '<') (a s : Text) (n : Nat) :
    scan (a ++ c :: s) (n + c.utf8Size) (size a) = scan (a ++ [c] ++ s) n (size (a ++ [c])) := by
  have hskip := scan_skip (a ++ c :: s) c.utf8Size n (size a) fun j hj => by
    cases hascii : isAscii c with
    | true =>
      rw [Style.Octets.utf8Size_eq_one hascii, Nat.lt_one_iff] at hj
      subst hj
      refine ⟨octet c, Style.Octets.getElem?_ascii hascii, ?_⟩
      rwa [Ne, Style.Octets.octet_eq_iff hascii rfl]
    | false =>
      obtain ⟨b, hb, hpart⟩ := Style.Octets.getElem?_part (a := a) (s := s) hascii hj
      exact ⟨b, hb, hpart '<' rfl⟩
  rw [hskip, Style.Octets.size_append, Style.Octets.size_cons, Style.Octets.size_nil, Nat.add_zero,
    List.append_assoc, List.singleton_append]

theorem commentStop_eq (a body : Text) : commentStop (a ++ "<!--" ++ body) (size a)
    = .ok (match cut? "-->" body with
      | some (inner, _) => size (a ++ ("<!--" ++ inner ++ "-->"))
      | none => size (a ++ ("<!--" ++ body))) := by
  have hplace : size a + 4 = size (a ++ "<!--") := by
    rw [Style.Octets.size_append]
    rfl
  rw [commentStop, hplace, Style.Octets.slice_end]
  simp only [bind, Except.bind, pure, Except.pure]
  cases cut? "-->" body with
  | none => rw [List.append_assoc]
  | some cut =>
    obtain ⟨inner, rest⟩ := cut
    simp only [Style.Octets.size_append, Nat.add_assoc]
    rfl

/-- What the scanner does at a `<`. -/
theorem scan_bracket (a s : Text) (n : Nat) :
    scan (a ++ '<' :: s) (n + 1) (size a)
      = if (after? "!--" s).isSome then commentStop (a ++ '<' :: s) (size a) >>= scan (a ++ '<' :: s) n
        else if s.head?.any Char.isAlpha then do
          match ← readTag? (a ++ '<' :: s) n (size a) with
          | none => scan (a ++ '<' :: s) n (size (a ++ ['<']))
          | some tag =>
            return tag :: (← scan (a ++ '<' :: s) n (← contentStop (a ++ '<' :: s) tag))
        else scan (a ++ '<' :: s) n (size (a ++ ['<'])) := by
  have hbegins : startsWith ('<' :: s) "<!--" = (after? "!--" s).isSome := by
    simp [startsWith, after?]
  have hnext : ((ofText (a ++ '<' :: s))[size (a ++ ['<'])]?.any fun b => (charOf b).isAlpha)
      = s.head?.any Char.isAlpha := by
    have hshape : a ++ '<' :: s = a ++ ['<'] ++ s := List.append_cons a '<' s
    rw [hshape]
    exact any_getElem? isAsciiTest_isAlpha _ _
  rw [scan, Style.Octets.getElem?_ascii (c := '<') rfl]
  simp only [if_pos, Style.Octets.slice_end, hbegins, size_succ (c := '<') rfl, hnext, bind, Except.bind]

theorem scan_comment (h : after? "!--" s = some body) (a : Text) (n : Nat) :
    scan (a ++ '<' :: s) (n + 1) (size a)
      = scan (a ++ '<' :: s) n (match cut? "-->" body with
        | some (inner, _) => size (a ++ ("<!--" ++ inner ++ "-->"))
        | none => size (a ++ ("<!--" ++ body))) := by
  have hshape : a ++ '<' :: s = a ++ "<!--" ++ body := by
    rw [after?_eq_some.1 h]
    simp
  rw [scan_bracket, if_pos (Option.isSome_of_eq_some h), hshape, commentStop_eq]
  rfl

theorem scan_of_readTag?_eq_none (hcomment : after? "!--" s = none) (hread : Markup.readTag? s = none)
    (hn : size s < n) (a : Text) :
    scan (a ++ '<' :: s) (n + 1) (size a) = scan (a ++ ['<'] ++ s) n (size (a ++ ['<'])) := by
  have hshape : a ++ '<' :: s = a ++ ['<'] ++ s := List.append_cons a '<' s
  rw [scan_bracket, if_neg (Option.not_isSome_iff_eq_none.2 hcomment)]
  split
  · next halpha =>
    rcases reads_readTag? a hn halpha with ⟨-, hnone⟩ | ⟨tag, inner, rest, -, -, hsome, -⟩
    · rw [hnone, ← hshape]
      rfl
    · exact absurd (hread.symm.trans hsome) (by simp)
  · rw [hshape]

/-- A tag that can be read begins with a letter. -/
theorem isAlpha_of_readTag? {read : Text × List RawAttribute × Bool × Text}
    (h : Markup.readTag? s = some read) : s.head?.any Char.isAlpha = true := by
  cases s with
  | nil => simp [Markup.readTag?] at h
  | cons c s =>
    rw [Markup.readTag?] at h
    split at h
    · next hc => exact hc
    · cases h

/-- At a tag the scanner goes on behind what the tag holds. -/
theorem scan_of_readTag? {stop : Nat} {tags : List Tag} (hcomment : after? "!--" s = none)
    (halpha : s.head?.any Char.isAlpha = true) (hread : readTag? (a ++ '<' :: s) n (size a) = .ok (some tag))
    (hstop : contentStop (a ++ '<' :: s) tag = .ok stop) (hscan : scan (a ++ '<' :: s) n stop = .ok tags) :
    scan (a ++ '<' :: s) (n + 1) (size a) = .ok (tag :: tags) := by
  rw [scan_bracket, if_neg (Option.not_isSome_iff_eq_none.2 hcomment), if_pos halpha, hread]
  simp only [bind, Except.bind, hstop, hscan]
  rfl

/-! ## The tags of a text -/

/-- The tag is what a tag says whose places are counted in characters. -/
structure Measures (markup : Text) (tag : Tag) (t : StartTag) : Prop where
  name_eq : tag.name = t.name
  rawName_eq : tag.rawName = t.rawName
  start_eq : tag.start = size (markup.take t.start)
  stop_eq : tag.stop = size (markup.take t.stop)
  attributes_eq : tag.attributes.map (·.toRawAttribute) = t.attributes
  selfClosing_eq : tag.selfClosing = t.selfClosing

theorem Measures.of_stands (h : tag.Stands a inner) (rest : Text) :
    Measures (a ++ '<' :: (tag.rawName ++ inner ++ '>' :: rest)) tag ⟨lowerAscii tag.rawName, tag.rawName,
      a.length, a.length + ((tag.rawName ++ inner ++ '>' :: rest).length + 1 - rest.length),
      tag.attributes.map (·.toRawAttribute), tag.selfClosing⟩ where
  name_eq := h.name_eq
  rawName_eq := rfl
  start_eq := by
    rw [h.start_eq]
    exact congrArg size List.take_left.symm
  stop_eq := by
    have hlength : a.length + ((tag.rawName ++ inner ++ '>' :: rest).length + 1 - rest.length)
        = (a ++ '<' :: (tag.rawName ++ inner ++ ['>'])).length := by
      simp only [List.length_append, List.length_cons, List.length_nil]
      omega
    have hsplit : a ++ '<' :: (tag.rawName ++ inner ++ '>' :: rest)
        = a ++ '<' :: (tag.rawName ++ inner ++ ['>']) ++ rest := by simp
    rw [h.stop_eq, hlength, hsplit, List.take_left]
  attributes_eq := rfl
  selfClosing_eq := rfl

/-- Behind `a` the scanner finds in the text `s` what is found character by character, and regions can be
laid out around it. -/
def Scans (a s : Text) (n : Nat) (found : List StartTag) : Prop :=
  ∃ regions, scan (a ++ s) n (size a) = .ok (tagsOf regions) ∧ Laid a s regions
    ∧ List.Forall₂ (Measures (a ++ s)) (tagsOf regions) found

namespace Scans

variable {found : List StartTag}

theorem nil (hn : 0 < n) (a : Text) : Scans a [] n [] := by
  refine ⟨[], ?_, .done a, .nil⟩
  rw [List.append_nil, scan_end hn]
  rfl

theorem skip (hc : ¬ Begins (c :: s)) {m : Nat}
    (hscan : scan (a ++ c :: s) m (size a) = scan (a ++ [c] ++ s) n (size (a ++ [c])))
    (h : Scans (a ++ [c]) s n found) : Scans a (c :: s) m found := by
  have hshape : a ++ c :: s = a ++ [c] ++ s := List.append_cons a c s
  obtain ⟨regions, hfound, hlaid, hmeasures⟩ := h
  exact ⟨regions, hscan.trans hfound, .skip hc hlaid, hshape ▸ hmeasures⟩

theorem comment (hs : '<' :: s = t ++ rest) (ht : IsComment t rest) {m : Nat}
    (hscan : scan (a ++ '<' :: s) m (size a) = scan (a ++ '<' :: s) n (size (a ++ t)))
    (h : Scans (a ++ t) rest n found) : Scans a ('<' :: s) m found := by
  obtain ⟨regions, hfound, hlaid, hmeasures⟩ := h
  rw [List.append_assoc, ← hs] at hfound hmeasures
  refine ⟨.comment (size a) (size (a ++ t)) :: regions, hscan.trans hfound, ?_, hmeasures⟩
  rw [hs]
  exact .region (.comment ht) hlaid

/-- A tag, and the text `t` that it holds. -/
theorem startTag {name behind : Text} {attributes : List RawAttribute} {closing : Bool}
    (hcomment : after? "!--" s = none) (hread : Markup.readTag? s = some (name, attributes, closing, behind))
    (hbehind : behind = t ++ rest) (hn : size s < n)
    (hbare : (rawTextNames.contains (lowerAscii name) && !closing) = false → t = [])
    (htext : (rawTextNames.contains (lowerAscii name) && !closing) = true →
      UpTo (endTagOpens (lowerAscii name)) t rest)
    (h : ∀ b, a ++ '<' :: s = b ++ rest → Scans b rest n found) :
    Scans a ('<' :: s) (n + 1) (⟨lowerAscii name, name, a.length, a.length + (s.length + 1 - behind.length),
      attributes, closing⟩ :: found) := by
  subst hbehind
  have halpha := isAlpha_of_readTag? hread
  rcases reads_readTag? a hn halpha with ⟨hnone, -⟩ | ⟨tag, inner, behind, hs, hstands, hsome, hoctets⟩
  · exact absurd (hread.symm.trans hnone) (by simp)
  obtain ⟨rfl, rfl, rfl, rfl⟩ := by simpa using hread.symm.trans hsome
  rw [← hstands.name_eq] at hbare htext
  -- the text up to the end of the tag
  generalize hfront : a ++ '<' :: (tag.rawName ++ inner ++ ['>']) = front
  have hshape : a ++ '<' :: s = front ++ (t ++ rest) := by
    rw [hs, ← hfront]
    simp
  have hstop : tag.stop = size front := hfront ▸ hstands.stop_eq
  have hcontent : contentStop (front ++ (t ++ rest)) tag = .ok (size (front ++ t)) :=
    contentStop_eq hstop hbare htext
  obtain ⟨regions, hfound, hlaid, hmeasures⟩ := h (front ++ t) (by rw [hshape, List.append_assoc])
  rw [List.append_assoc, ← hshape] at hfound hmeasures
  rw [← hshape] at hcontent
  refine ⟨.tag tag (size (front ++ t)) :: regions,
    scan_of_readTag? hcomment halpha hoctets hcontent hfound, ?_, .cons ?_ hmeasures⟩
  · have hsplit : '<' :: s = '<' :: (tag.rawName ++ inner ++ ['>']) ++ t ++ rest := by
      rw [hs]
      simp
    have hbehind : a ++ ('<' :: (tag.rawName ++ inner ++ ['>']) ++ t) = front ++ t := by
      rw [← hfront]
      exact (List.append_assoc ..).symm
    have hregion : Region.Stands a (.tag tag _) _ rest := .tag hstands hbare htext
    rw [hbehind] at hregion
    rw [hsplit]
    exact .region hregion (hbehind ▸ hlaid)
  · rw [hs]
    exact .of_stands hstands (t ++ rest)

end Scans

/-- The characters that are passed over, and the octets that are left behind them. -/
theorem passed {b : Text} (h : a ++ '<' :: s = b ++ rest) (hlength : rest.length ≤ s.length) :
    b.length = a.length + (s.length + 1 - rest.length) ∧ size rest ≤ size s := by
  have hlengths := congrArg List.length h
  simp only [List.length_append, List.length_cons] at hlengths
  refine ⟨by omega, ?_⟩
  have hrest : rest <:+ a ++ '<' :: s := ⟨b, h.symm⟩
  have hsuffix : rest <:+ s := List.suffix_of_suffix_length_le hrest ⟨a ++ ['<'], by simp⟩ hlength
  obtain ⟨t, rfl⟩ := hsuffix
  rw [Style.Octets.size_append]
  exact Nat.le_add_left _ _

/-- Scanning octets finds what scanning characters finds. -/
theorem scans_scanFrom {offset : Nat} (ha : a.length = offset) (hn : size s < n) :
    Scans a s n (scanFrom offset s) := by
  -- by characters, since each step of this scan passes over one region, or over one character where
  -- nothing begins; the octets follow
  fun_induction scanFrom offset s generalizing a n with
  | case1 => exact .nil hn a
  | case2 offset s body hbody before rest hcut hlength ih =>
    obtain ⟨n, rfl⟩ := Nat.exists_eq_add_of_lt hn
    have hsplit : '<' :: s = "<!--" ++ before ++ "-->" ++ rest := by
      rw [after?_eq_some.1 hbody, cut?_eq_some hcut]
      simp
    have hmarkup : a ++ '<' :: s = a ++ ("<!--" ++ before ++ "-->") ++ rest := by
      rw [hsplit, List.append_assoc a]
    have hscan := scan_comment hbody a (size ('<' :: s) + n)
    rw [hcut] at hscan
    obtain ⟨hreached, hsize⟩ := passed hmarkup hlength
    have hlt := size_lt_cons '<' s
    exact .comment hsplit (.closed (.of_cut?_eq_some hcut)) hscan (ih (by rw [hreached, ha]) (by omega))
  | case3 offset s body hbody before rest hcut hlength =>
    refine absurd ?_ hlength
    have := length_of_cut? hcut
    have := length_of_after? hbody
    omega
  | case4 offset s body hbody hcut =>
    obtain ⟨n, rfl⟩ := Nat.exists_eq_add_of_lt hn
    have hsplit : '<' :: s = "<!--".toList ++ body ++ [] := by
      rw [after?_eq_some.1 hbody]
      simp
    have hscan := scan_comment hbody a (size ('<' :: s) + n)
    rw [hcut] at hscan
    have hlt := size_lt_cons '<' s
    exact .comment hsplit (.unclosed (.of_cut?_eq_none hcut)) hscan (.nil (by omega) _)
  | case5 offset s hcomment hread ih =>
    obtain ⟨n, rfl⟩ := Nat.exists_eq_add_of_lt hn
    have hlt := size_lt_cons '<' s
    have hnothing : ¬ Begins ('<' :: s) := by
      rw [begins_cons_iff, hcomment, hread]
      simp
    exact .skip hnothing (scan_of_readTag?_eq_none hcomment hread (by omega) a)
      (ih (by simp [ha]) (by omega))
  | case6 offset s hcomment rawName attributes closing rest hread hlength name stop tag hholds =>
    rename_i ih
    obtain ⟨n, rfl⟩ := Nat.exists_eq_add_of_lt hn
    have hend := length_fromEndTag name rest
    obtain ⟨t, hrest, htext⟩ := upTo_fromEndTag name rest
    have hlt := size_lt_cons '<' s
    subst ha
    refine .startTag hcomment hread hrest (by omega)
      (fun hbare => absurd hholds (Bool.eq_false_iff.1 hbare)) (fun _ => htext) fun b hb => ?_
    obtain ⟨hreached, hsize⟩ := passed hb (hend.trans hlength.le)
    refine ih ?_ (by omega)
    rw [hreached]
    omega
  | case7 offset s hcomment rawName attributes closing rest hread hlength name stop tag =>
    rename_i hholds ih
    obtain ⟨n, rfl⟩ := Nat.exists_eq_add_of_lt hn
    have hlt := size_lt_cons '<' s
    subst ha
    refine .startTag hcomment hread (List.nil_append rest).symm (by omega)
      (fun _ => rfl) (fun hyes => absurd hyes hholds) fun b hb => ?_
    obtain ⟨hreached, hsize⟩ := passed hb hlength.le
    exact ih hreached (by omega)
  | case8 offset c s hc ih =>
    obtain ⟨n, rfl⟩ := Nat.exists_eq_add_of_lt hn
    have hnothing : ¬ Begins (c :: s) := fun h => hc (begins_cons_iff.1 h).1
    have hrounds : size (c :: s) + n + 1 = size s + n + 1 + c.utf8Size := by
      rw [Style.Octets.size_cons]
      omega
    rw [hrounds]
    exact .skip hnothing (scan_of_ne hc a s _) (ih (by simp [ha]) (by omega))

/-- Scanning a whole markup takes a round for each octet at most, and one more. -/
theorem exists_regions (markup : Text) : ∃ regions,
    scan markup (size markup + 1) 0 = .ok (tagsOf regions) ∧ Laid [] markup regions
    ∧ List.Forall₂ (Measures markup) (tagsOf regions) (scanStartTags markup) :=
  scans_scanFrom (a := []) rfl (Nat.lt_succ_self (size markup))

/-- On every markup the scanner ends, without a fault: no place is out of range or within a character.  It
finds the tags that are found character by character, and these are sound, if what ends the text of an
element are the letters of its end tag.  They are sound by the reading of documents as well, unless such
letters begin the tag of another name. -/
theorem scan_sound (markup : Text) : ∃ tags, scan markup (size markup + 1) 0 = .ok tags
    ∧ List.Forall₂ (Measures markup) tags (scanStartTags markup)
    ∧ Sound endTagOpens markup tags
    ∧ (SameContent endTagOpens endTagBegins markup tags → Sound endTagBegins markup tags) := by
  obtain ⟨regions, hscan, hlaid, hmeasures⟩ := exists_regions markup
  exact ⟨tagsOf regions, hscan, hmeasures, hlaid.sound, fun h => hlaid.sound.congr h⟩

/-- Tags that are measured in octets and in characters have the same names. -/
theorem map_name_of_measures {markup : Text} {tags : List Tag} {found : List StartTag}
    (h : List.Forall₂ (Measures markup) tags found) : tags.map (·.name) = found.map (·.name) := by
  induction h with
  | nil => rfl
  | cons hmeasures _ ih => rw [List.map_cons, List.map_cons, hmeasures.name_eq, ih]

/-- Markup with a comment, an element that holds text, and characters of two octets. -/
def notePage : Text := "<!-- <p> --><div a=\"é>\" b c=d/><textarea><b>no</b></textarea>ü<br/>"

theorem scan_sound_note : ∃ tags, scan notePage (size notePage + 1) 0 = .ok tags
    ∧ tags.map (·.name) = (["div", "textarea", "br"] : List Text) ∧ Sound endTagBegins notePage tags := by
  obtain ⟨tags, hscan, hmeasures, -, hsound⟩ := scan_sound notePage
  have hnames : tags.map (·.name) = (["div", "textarea", "br"] : List Text) := by
    rw [map_name_of_measures hmeasures]
    decide +kernel
  have hsame : ∀ name ∈ (["div", "textarea", "br"] : List Text), ∀ u ∈ notePage.tails,
      endTagOpens name u = endTagBegins name u := by decide +kernel
  refine ⟨tags, hscan, hnames, hsound (.of_suffixes fun tag htag _ u hu => ?_)⟩
  exact hsame _ (hnames ▸ List.mem_map_of_mem htag) u ((List.mem_tails ..).2 hu)

/-- Markup in which the text of an element holds the end tag of another name. -/
def headingPage : Text := "<textarea></textareas><h1>Hi</h1></textarea><h1>Hi</h1>"

/-- Between the element that holds text and its end tag a tag is found, the first heading. -/
theorem not_sound_heading : ∃ tags, scan headingPage (size headingPage + 1) 0 = .ok tags
    ∧ (∃ area ∈ tags, area.holdsText = true ∧ ∃ stop, Content endTagBegins headingPage area stop
      ∧ ∃ heading ∈ tags, Within heading.start area.stop stop)
    ∧ ¬ Sound endTagBegins headingPage tags := by
  obtain ⟨regions, hscan, -, hmeasures⟩ := exists_regions headingPage
  have hfound : scanStartTags headingPage = [⟨"textarea", "textarea", 0, 10, [], false⟩,
      ⟨"h1", "h1", 22, 26, [], false⟩, ⟨"h1", "h1", 44, 48, [], false⟩] := by decide +kernel
  rw [hfound] at hmeasures
  generalize tagsOf regions = tags at hscan hmeasures
  cases hmeasures with
  | @cons area _ _ _ harea hmeasures =>
    cases hmeasures with
    | @cons heading _ _ _ hheading _ =>
      have hholds : area.holdsText = true := by
        rw [Tag.holdsText, harea.name_eq, harea.selfClosing_eq]
        decide
      have hcontent : Content endTagBegins headingPage area 33 := by
        refine ⟨"<textarea>", "</textareas><h1>Hi</h1>", "</textarea><h1>Hi</h1>", by decide +kernel, ?_,
          by decide +kernel, ?_⟩
        · rw [harea.stop_eq]
          decide +kernel
        · rw [harea.name_eq]
          decide +kernel
      have hwithin : Within heading.start area.stop 33 := by
        rw [Within, hheading.start_eq, harea.stop_eq]
        decide +kernel
      refine ⟨_, hscan, ⟨area, by simp, hholds, 33, hcontent, heading, by simp, hwithin⟩, fun hsound => ?_⟩
      obtain ⟨stop, hcontent', houtside⟩ := hsound.outsideContent area (by simp) hholds
      obtain rfl := hcontent'.unique hcontent
      exact houtside heading (by simp) hwithin

end WidgetCompiler.Markup.Octets
