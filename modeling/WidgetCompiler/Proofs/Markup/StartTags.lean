import WidgetCompiler.Markup.StartTag
import WidgetCompiler.Proofs.Text.Blank
import WidgetCompiler.Proofs.Text.Run

/-!
# Where start tags stand

What `scanStartTags` says of a tag is so in the markup: at its place stands a `<` with the name
behind it, the tag reaches to a `>`, and each attribute is written as it says
(`stands_of_mem_scanStartTags`).  An end tag that `endTagEnd?` finds stands there as well
(`slice_of_endTagEnd?`).
-/

namespace WidgetCompiler.Markup

open Text

/-! ## Slices -/

theorem slice_append (a b c : Text) : slice (a ++ b ++ c) a.length (a.length + b.length) = b := by
  have htake : (a ++ b ++ c).take (a.length + b.length) = a ++ b := by
    rw [← List.length_append, List.take_left]
  rw [slice, htake, List.drop_left]

theorem slice_infix (s : Text) (start stop : Nat) : slice s start stop <:+: s :=
  (List.drop_suffix _ _).isInfix.trans (List.take_prefix _ _).isInfix

/-- What two places cut out of a text, and what is behind them. -/
theorem slice_append_drop {s : Text} {a b : Nat} (h : a ≤ b) :
    slice s a b ++ s.drop b = s.drop a := by
  have hb : s.drop b = (s.drop a).drop (b - a) := by
    rw [List.drop_drop, Nat.add_sub_cancel' h]
  rw [slice, List.drop_take, hb, List.take_append_drop]

/-! ## Reading -/

theorem suffix_of_afterValue? {s rest : Text} (h : afterValue? s = some rest) : rest <:+ s := by
  have drop (p : Char → Bool) (t : Text) : t.dropWhile p <:+ t := List.dropWhile_suffix p
  have cut {p : Char → Bool} {t r : Text} (h : (cutAt? p t).map (·.2) = some r) : r <:+ t := by
    obtain ⟨⟨b, r'⟩, hb, rfl⟩ := Option.map_eq_some_iff.1 h
    obtain ⟨c, -, rfl, -⟩ := cutAt?_eq_some hb
    exact ⟨b ++ [c], by simp⟩
  unfold afterValue? at h
  split at h
  · next v hv =>
    have hs : v <:+ s := (List.suffix_cons '=' v).trans (hv ▸ drop isAsciiBlank s)
    have hw (d : Char) (w : Text) (h : v.dropWhile isAsciiBlank = d :: w) : w <:+ s :=
      ((List.suffix_cons d w).trans (h ▸ drop isAsciiBlank v)).trans hs
    split at h
    · next w hw' => exact (cut h).trans (hw _ w hw')
    · next w hw' => exact (cut h).trans (hw _ w hw')
    · obtain rfl := Option.some.inj h
      exact ((drop _ _).trans (drop isAsciiBlank v)).trans hs
  · obtain rfl := Option.some.inj h
    exact List.suffix_rfl

theorem of_readAttribute? {s rest : Text} {a : RawAttribute}
    (h : readAttribute? s = some (a, rest)) : rest <:+ s ∧ a.raw <:+: s := by
  obtain ⟨r, hr, he⟩ := Option.map_eq_some_iff.1 h
  obtain ⟨rfl, rfl⟩ := Prod.mk.inj he
  exact ⟨(suffix_of_afterValue? hr).trans (List.dropWhile_suffix _), (List.take_prefix _ _).isInfix⟩

/-- The attributes of a tag are read from what stands up to its `>`. -/
theorem of_readAttributes? {s rest : Text} {as : List RawAttribute} {closing : Bool}
    (h : readAttributes? s = some (as, closing, rest)) :
    (∃ inner, s = inner ++ '>' :: rest) ∧ ∀ a ∈ as, a.raw <:+: s := by
  have behind (front : Text) {t u : Text} (ht : u <:+: t) : u <:+: front ++ t :=
    ht.trans (List.suffix_append _ _).isInfix
  fun_induction readAttributes? s generalizing as with
  | case1 => simp at h
  | case2 c s _ ih =>
    obtain ⟨⟨inner, hs⟩, hraw⟩ := ih h
    exact ⟨⟨c :: inner, by rw [hs]; rfl⟩, fun a ha => behind [c] (hraw a ha)⟩
  | case3 s =>
    obtain ⟨rfl, -, rfl⟩ := by simpa using h
    exact ⟨⟨[], rfl⟩, by simp⟩
  | case4 c s _ _ hc =>
    obtain ⟨rfl, hs⟩ := hc
    obtain ⟨rfl, -, rfl⟩ := by simpa using h
    refine ⟨⟨['/'], ?_⟩, by simp⟩
    cases s with
    | nil => simp at hs
    | cons d s => simp_all
  | case5 c s _ _ _ _ ih =>
    obtain ⟨⟨inner, hs⟩, hraw⟩ := ih h
    exact ⟨⟨c :: inner, by rw [hs]; rfl⟩, fun a ha => behind [c] (hraw a ha)⟩
  | case6 => simp at h
  | case7 c s _ _ _ _ a r hr _ ih =>
    obtain ⟨⟨as', b, r'⟩, hb, he⟩ := Option.map_eq_some_iff.1 h
    obtain ⟨rfl, rfl, rfl⟩ := by simpa using he
    obtain ⟨⟨front, hfront⟩, ha⟩ := of_readAttribute? hr
    obtain ⟨⟨inner, hs⟩, hraw⟩ := ih hb
    refine ⟨⟨front ++ inner, by rw [← hfront, hs, List.append_assoc]⟩, fun a' ha' => ?_⟩
    rcases List.mem_cons.1 ha' with rfl | ha'
    · exact ha
    · rw [← hfront]
      exact behind front (hraw a' ha')
  | case8 => simp at h

/-! ## Steps of a scan -/

/-- Nothing begins at a character other than `<`. -/
theorem scanFrom_of_ne {c : Char} (hc : c ≠ '<') (offset : Nat) (s : Text) :
    scanFrom offset (c :: s) = scanFrom (offset + 1) s := by
  rw [scanFrom, if_neg hc]

/-- Nothing begins in a text without `<`. -/
theorem scanFrom_of_not_mem {t : Text} (h : '<' ∉ t) (offset : Nat) (s : Text) :
    scanFrom offset (t ++ s) = scanFrom (offset + t.length) s := by
  induction t generalizing offset with
  | nil => rfl
  | cons c t ih =>
    obtain ⟨hc, ht⟩ : '<' ≠ c ∧ '<' ∉ t := by simpa using h
    rw [List.cons_append, scanFrom_of_ne (Ne.symm hc), ih ht, List.length_cons]
    congr 1
    omega

/-- A `<` that begins neither a comment nor a tag is passed over. -/
theorem scanFrom_of_readTag?_eq_none {s : Text} (hcomment : after? "!--" s = none)
    (h : readTag? s = none) (offset : Nat) :
    scanFrom offset ('<' :: s) = scanFrom (offset + 1) s := by
  rw [scanFrom, if_pos rfl]
  simp only [hcomment]
  split
  · rfl
  · next h' => simp [h] at h'

/-- A tag is read where one begins, and the scan goes on behind it. -/
theorem scanFrom_of_readTag? {s rest rawName : Text} {attributes : List RawAttribute}
    {closing : Bool} (hcomment : after? "!--" s = none)
    (h : readTag? s = some (rawName, attributes, closing, rest))
    (hraw : lowerAscii rawName ∉ rawTextNames) (offset : Nat) :
    scanFrom offset ('<' :: s)
      = ⟨lowerAscii rawName, rawName, offset, offset + (s.length + 1 - rest.length), attributes,
          closing⟩ :: scanFrom (offset + (s.length + 1 - rest.length)) rest := by
  rw [scanFrom, if_pos rfl]
  simp only [hcomment]
  split
  · next h' => simp [h] at h'
  · next h' =>
    obtain ⟨rfl, rfl, rfl, rfl⟩ := by simpa using h.symm.trans h'
    have hcontains : rawTextNames.contains (lowerAscii rawName) = false := by simpa using hraw
    simp only [hcontains, Bool.false_and, Bool.false_eq_true, if_false]

/-! ## Tags -/

/-- The tag stands in the markup as it says. -/
structure Stands (markup : Text) (tag : StartTag) : Prop where
  opens : ∃ inner, slice markup tag.start tag.stop = '<' :: (tag.rawName ++ inner ++ ['>'])
  named : tag.rawName.all isTagNamePart = true
  raw : ∀ a ∈ tag.attributes, a.raw <:+: markup

theorem of_readTag? {s rest name : Text} {as : List RawAttribute} {closing : Bool}
    (h : readTag? s = some (name, as, closing, rest)) :
    (∃ inner, s = name ++ inner ++ '>' :: rest) ∧ name.all isTagNamePart = true
      ∧ ∀ a ∈ as, a.raw <:+: s := by
  unfold readTag? at h
  split at h
  · simp at h
  · next c r =>
    split at h
    · obtain ⟨⟨as', b, r'⟩, hb, he⟩ := Option.map_eq_some_iff.1 h
      obtain ⟨rfl, rfl, rfl, rfl⟩ := by simpa using he
      obtain ⟨⟨inner, hs⟩, hraw⟩ := of_readAttributes? hb
      refine ⟨⟨inner, ?_⟩, List.all_takeWhile, fun a ha => ?_⟩
      · rw [List.append_assoc, ← hs, List.takeWhile_append_dropWhile]
      · exact (hraw a ha).trans (List.dropWhile_suffix _).isInfix
    · simp at h

theorem fromEndTag_suffix (name s : Text) : fromEndTag name s <:+ s := by
  induction s with
  | nil => exact List.suffix_rfl
  | cons c s ih =>
    unfold fromEndTag
    split
    · exact List.suffix_rfl
    · exact ih.trans (List.suffix_cons c s)

/-- A tag that was read behind `front` stands there. -/
theorem stands_of_readTag? {s rest name front : Text} {as : List RawAttribute} {closing : Bool}
    (h : readTag? s = some (name, as, closing, rest)) :
    Stands (front ++ '<' :: s) ⟨lowerAscii name, name, front.length,
      front.length + (s.length + 1 - rest.length), as, closing⟩ := by
  obtain ⟨⟨inner, hs⟩, hnamed, hraw⟩ := of_readTag? h
  refine ⟨⟨inner, ?_⟩, hnamed, fun a ha => (hraw a ha).trans ?_⟩
  · have hlength : s.length + 1 - rest.length = ('<' :: (name ++ inner ++ ['>'])).length := by
      rw [hs]
      simp
      omega
    have hsplit : front ++ '<' :: s = front ++ '<' :: (name ++ inner ++ ['>']) ++ rest := by
      rw [hs]
      simp
    rw [hsplit, hlength, slice_append]
  · exact ⟨front ++ ['<'], [], by simp⟩

theorem stands_of_mem_scanFrom {offset : Nat} {s front : Text} (hfront : front.length = offset) :
    ∀ tag ∈ scanFrom offset s, Stands (front ++ s) tag := by
  -- where the scan goes on, it has counted what it passed over
  have onward {t r : Text} {front : Text} {reached : Nat} (hr : r <:+ t)
      (hreached : reached = front.length + (t.length - r.length))
      (ih : ∀ {before : Text}, before.length = reached →
        ∀ tag ∈ scanFrom reached r, Stands (before ++ r) tag) :
      ∀ tag ∈ scanFrom reached r, Stands (front ++ t) tag := by
    obtain ⟨mid, rfl⟩ := hr
    rw [← List.append_assoc]
    exact ih (by simp [hreached])
  fun_induction scanFrom offset s generalizing front with
  | case1 => simp
  | case2 offset s body hbody before rest hcut _ ih =>
    subst hfront
    have hrest : rest <:+ '<' :: s := by
      rw [after?_eq_some.1 hbody, cut?_eq_some hcut]
      exact ⟨'<' :: ("!--" ++ before ++ "-->"), by simp⟩
    exact onward hrest rfl ih
  | case3 => simp
  | case4 => simp
  | case5 offset s _ _ ih =>
    subst hfront
    exact onward (List.suffix_cons '<' s) (by simp) ih
  | case6 offset s _ rawName attributes closing rest h _ name stop tag _ _ =>
    rename_i ih
    subst hfront
    obtain ⟨⟨inner, hs⟩, -⟩ := of_readTag? h
    have hrest : rest <:+ '<' :: s := ⟨'<' :: (rawName ++ inner ++ ['>']), by simp [hs]⟩
    have hend := fromEndTag_suffix name rest
    have hlength₁ := hend.length_le
    have hlength₂ := hrest.length_le
    intro tag' htag'
    rcases List.mem_cons.1 htag' with rfl | htag'
    · exact stands_of_readTag? h
    · refine onward (hend.trans hrest) ?_ ih tag' htag'
      simp only [stop, List.length_cons] at hlength₂ ⊢
      omega
  | case7 offset s _ rawName attributes closing rest h _ name stop tag _ =>
    rename_i ih
    subst hfront
    obtain ⟨⟨inner, hs⟩, -⟩ := of_readTag? h
    have hrest : rest <:+ '<' :: s := ⟨'<' :: (rawName ++ inner ++ ['>']), by simp [hs]⟩
    intro tag' htag'
    rcases List.mem_cons.1 htag' with rfl | htag'
    · exact stands_of_readTag? h
    · exact onward hrest rfl ih tag' htag'
  | case8 offset c s hc ih =>
    subst hfront
    exact onward (List.suffix_cons c s) (by simp) ih

/-- Every start tag that is found in markup stands there. -/
theorem stands_of_mem_scanStartTags {markup : Text} :
    ∀ tag ∈ scanStartTags markup, Stands markup tag :=
  @stands_of_mem_scanFrom 0 markup [] rfl

/-- An end tag that is found stands there. -/
theorem slice_of_endTagEnd? {markup name : Text} {start stop : Nat}
    (h : endTagEnd? markup start name = some stop) :
    ∃ inner, slice markup start stop = '<' :: '/' :: (inner ++ ['>']) := by
  unfold endTagEnd? at h
  split at h
  · next s hs =>
    split at h
    · split at h
      · next rest hrest =>
        obtain rfl := Option.some.inj h
        have hdrop : markup.drop start = "</" ++ s := after?_eq_some.1 hs
        obtain ⟨blanks, hblanks⟩ : ∃ blanks, s.drop name.length = blanks ++ '>' :: rest :=
          ⟨_, by rw [← hrest, trimStart_append]⟩
        have hstart : (markup.take start).length = start := by
          refine List.length_take_of_le (Nat.le_of_not_lt fun hlt => ?_)
          rw [List.drop_eq_nil_of_le (Nat.le_of_lt hlt)] at hdrop
          simp at hdrop
        let inner := s.take name.length ++ blanks
        have hs' : s = inner ++ '>' :: rest := by
          rw [List.append_assoc, ← hblanks, List.take_append_drop]
        have hsplit : markup = markup.take start ++ ('<' :: '/' :: (inner ++ ['>'])) ++ rest :=
          calc markup = markup.take start ++ markup.drop start :=
                (List.take_append_drop start markup).symm
            _ = _ := by
                rw [hdrop, hs']
                simp
        have hlength : markup.length - rest.length
            = (markup.take start).length + ('<' :: '/' :: (inner ++ ['>'])).length := by
          have := congrArg List.length hsplit
          rw [List.length_append, List.length_append] at this
          omega
        refine ⟨inner, ?_⟩
        have := slice_append (markup.take start) ('<' :: '/' :: (inner ++ ['>'])) rest
        rwa [← hlength, ← hsplit, hstart] at this
      · simp at h
    · simp at h
  · simp at h

end WidgetCompiler.Markup
