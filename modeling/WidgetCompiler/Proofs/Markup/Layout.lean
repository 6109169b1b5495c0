import WidgetCompiler.Markup.Token
import WidgetCompiler.Proofs.Markup.Octets
import Mathlib.Data.List.Pairwise

/-!
# How start tags lie in markup

Where tags are looked for, markup falls into regions: comments, start tags, and start tags of elements
whose content is text, with this text.  Between the regions nothing begins (`Laid`).  So regions follow
each other without overlap (`Laid.pairwise`), and each stands in the markup as what it is
(`Laid.stands`).

What is said of a list of tags does not mention regions.  `Met` says from the tags alone which comments
are met outside of them, and `Sound` that a list of tags is what one expects: each tag stands in the
markup, they come one after the other, and none begins in a comment that is met or in text that is no
markup.  A list of tags that regions are laid out around is sound (`Laid.sound`).

The text of an element ends where its end tag begins.  There are two readings of that, so it is left
open in both notions: `endTagBegins`, by which a document is read, asks for the whole name, and
`endTagOpens` for letters that it may begin with.
-/

namespace WidgetCompiler.Markup.Octets

open Text
open Style.Octets (size splitAt?_append)

/-! ## First places -/

/-- The text goes on up to the first place where `ends` holds, or up to the end of all. -/
structure UpTo (ends : Text → Bool) (t rest : Text) : Prop where
  reached : rest = [] ∨ ends rest = true
  first : ∀ y, y <:+ t → y ≠ [] → ends (y ++ rest) = false

namespace UpTo

variable {ends ends' : Text → Bool} {s t t' rest rest' mark : Text} {c : Char}

instance (ends : Text → Bool) (t rest : Text) : Decidable (UpTo ends t rest) :=
  decidable_of_iff ((rest = [] ∨ ends rest = true) ∧ ∀ y ∈ t.tails, y ≠ [] → ends (y ++ rest) = false)
    ⟨fun h => ⟨h.1, fun y hy => h.2 y ((List.mem_tails ..).2 hy)⟩,
      fun h => ⟨h.reached, fun y hy => h.first y ((List.mem_tails ..).1 hy)⟩⟩

theorem nil (h : rest = [] ∨ ends rest = true) : UpTo ends [] rest where
  reached := h
  first := fun _ hy hne => absurd (List.suffix_nil.1 hy) hne

theorem cons (hc : ends (c :: (t ++ rest)) = false) (h : UpTo ends t rest) : UpTo ends (c :: t) rest where
  reached := h.reached
  first := by
    intro y hy hne
    rcases List.suffix_cons_iff.1 hy with rfl | hy
    · exact hc
    · exact h.first y hy hne

/-- There is one first place only. -/
theorem unique (h : UpTo ends t rest) (h' : UpTo ends t' rest') (heq : t ++ rest = t' ++ rest') :
    t = t' := by
  have stop {t y rest : Text} (h : UpTo ends t (y ++ rest)) (h' : UpTo ends (t ++ y) rest) : y = [] := by
    by_contra hy
    rcases h.reached with hnil | hends
    · exact hy (List.append_eq_nil_iff.1 hnil).1
    · exact Bool.false_ne_true ((h'.first y (List.suffix_append t y) hy).symm.trans hends)
  rcases List.append_eq_append_iff.1 heq with ⟨y, rfl, rfl⟩ | ⟨y, rfl, rfl⟩
  · rw [stop h h', List.append_nil]
  · rw [stop h' h, List.append_nil]

/-- What holds at the same places has the same first place. -/
theorem congr (hends : ∀ u, u <:+ t ++ rest → ends u = ends' u) (h : UpTo ends t rest) :
    UpTo ends' t rest where
  reached := h.reached.imp_right fun hrest => (hends _ (List.suffix_append _ _)).symm.trans hrest
  first := by
    rintro y ⟨x, rfl⟩ hne
    rw [← hends _ ⟨x, (List.append_assoc ..).symm⟩]
    exact h.first y ⟨x, rfl⟩ hne

theorem of_cut?_eq_some (h : cut? mark s = some (t, rest)) :
    UpTo (startsWith · mark) t (mark ++ rest) := by
  induction s generalizing t with
  | nil =>
    cases mark with
    | nil =>
      obtain ⟨rfl, rfl⟩ := by simpa [cut?] using h
      exact nil (.inl rfl)
    | cons m mark => simp [cut?] at h
  | cons c s ih =>
    unfold cut? at h
    split at h
    · obtain ⟨rfl, rfl⟩ := by simpa using h
      exact nil (.inr (startsWith_iff.2 (List.prefix_append _ _)))
    · next hnone =>
      obtain ⟨⟨t', rest'⟩, hcut, he⟩ := Option.map_eq_some_iff.1 h
      obtain ⟨rfl, rfl⟩ := Prod.mk.inj he
      refine cons ?_ (ih hcut)
      rw [← List.append_assoc, ← cut?_eq_some hcut, startsWith, hnone]
      rfl

theorem of_cut?_eq_none (h : cut? mark s = none) : UpTo (startsWith · mark) s [] := by
  induction s with
  | nil => exact nil (.inl rfl)
  | cons c s ih =>
    unfold cut? at h
    split at h
    · simp at h
    · next hnone =>
      refine cons ?_ (ih (Option.map_eq_none_iff.1 h))
      rw [List.append_nil, startsWith, hnone]
      rfl

end UpTo

/-! ## Texts between two places -/

/-- Between the two places stands a text of which `P` holds, given the text behind it. -/
def Between (P : Text → Text → Prop) (markup : Text) (start stop : Nat) : Prop :=
  ∃ front t rest, markup = front ++ t ++ rest ∧ start = size front ∧ stop = size (front ++ t) ∧ P t rest

/-- The place is between the two others, or at the first of them. -/
def Within (p start stop : Nat) : Prop := start ≤ p ∧ p < stop

theorem Between.unique {P : Text → Text → Prop} {markup : Text} {start stop stop' : Nat}
    (hP : ∀ {t t' rest rest'}, P t rest → P t' rest' → t ++ rest = t' ++ rest' → t = t')
    (h : Between P markup start stop) (h' : Between P markup start stop') : stop = stop' := by
  obtain ⟨front, t, rest, hmarkup, hstart, rfl, ht⟩ := h
  obtain ⟨front', t', rest', hmarkup', hstart', rfl, ht'⟩ := h'
  have hsame : front ++ (t ++ rest) = front' ++ (t' ++ rest') := by
    rw [← List.append_assoc, ← hmarkup, hmarkup', List.append_assoc]
  have hsplit := splitAt?_append front (t ++ rest)
  rw [hsame, ← hstart, hstart', splitAt?_append] at hsplit
  obtain ⟨rfl, hrest⟩ := Prod.mk.inj (Option.some.inj hsplit)
  rw [hP ht ht' hrest.symm]

theorem Between.imp {P Q : Text → Text → Prop} {markup : Text} {start stop : Nat}
    (hPQ : ∀ {t rest}, t ++ rest <:+ markup → P t rest → Q t rest)
    (h : Between P markup start stop) : Between Q markup start stop := by
  obtain ⟨front, t, rest, hmarkup, hstart, hstop, ht⟩ := h
  refine ⟨front, t, rest, hmarkup, hstart, hstop, hPQ ⟨front, ?_⟩ ht⟩
  rw [hmarkup, List.append_assoc]

/-! ## Comments and text that is no markup -/

/-- A comment, given the text behind it.  One that does not end goes on to the end of all. -/
inductive IsComment : Text → Text → Prop
  | closed {inner rest : Text} : UpTo (startsWith · "-->") inner ("-->" ++ rest) →
      IsComment ("<!--" ++ inner ++ "-->") rest
  | unclosed {inner : Text} : UpTo (startsWith · "-->") inner [] → IsComment ("<!--" ++ inner) []

theorem IsComment.unique {t t' rest rest' : Text} (h : IsComment t rest) (h' : IsComment t' rest')
    (heq : t ++ rest = t' ++ rest') : t = t' := by
  -- the text of a comment with what follows, and what follows only if the comment ends
  have parts {t rest : Text} (h : IsComment t rest) : ∃ inner behind, UpTo (startsWith · "-->") inner behind
      ∧ t ++ rest = "<!--" ++ (inner ++ behind) ∧ t = "<!--" ++ (inner ++ behind.take 3) := by
    cases h with
    | @closed inner rest h => exact ⟨inner, "-->" ++ rest, h, by simp, by simp⟩
    | @unclosed inner h => exact ⟨inner, [], h, by simp, by simp⟩
  obtain ⟨inner, behind, hinner, hall, rfl⟩ := parts h
  obtain ⟨inner', behind', hinner', hall', rfl⟩ := parts h'
  have hsame : inner ++ behind = inner' ++ behind' :=
    List.append_cancel_left (hall.symm.trans (heq.trans hall'))
  obtain rfl := hinner.unique hinner' hsame
  rw [List.append_cancel_left hsame]

theorem IsComment.begins {t rest : Text} (h : IsComment t rest) : "<!--".toList <+: t ++ rest := by
  cases h with
  | @closed inner rest => exact ⟨inner ++ ("-->" ++ rest), by simp⟩
  | @unclosed inner => exact ⟨inner, by simp⟩

/-- The content of the element is text, in which no tags are looked for.  A tag that closes itself has
no content. -/
def Tag.holdsText (tag : Tag) : Bool := rawTextNames.contains tag.name && !tag.selfClosing

/-- Whether the text begins with `</` and a name, in letters of any case, be it the whole name of a tag or
only the beginning of one. -/
def endTagOpens (name s : Text) : Bool := startsWith (lowerAscii s) ("</" ++ name)

/-- The text in an element, from behind its start tag up to where its end tag begins. -/
def Content (ends : Text → Text → Bool) (markup : Text) (tag : Tag) : Nat → Prop :=
  Between (UpTo (ends tag.name)) markup tag.stop

theorem Content.unique {ends : Text → Text → Bool} {markup : Text} {tag : Tag} {stop stop' : Nat}
    (h : Content ends markup tag stop) (h' : Content ends markup tag stop') : stop = stop' :=
  Between.unique UpTo.unique h h'

/-- The comment is met: it does not begin in a tag, in text that is no markup, or in a comment that is
met before. -/
def Met (ends : Text → Text → Bool) (markup : Text) (tags : List Tag) (start stop : Nat) : Prop :=
  Between IsComment markup start stop
  ∧ (∀ tag ∈ tags, ¬ Within start tag.start tag.stop)
  ∧ (∀ tag ∈ tags, tag.holdsText = true → ∀ q, Content ends markup tag q → ¬ Within start tag.stop q)
  ∧ ∀ o q, (_ : o < start) → Met ends markup tags o q → q ≤ start
termination_by start

/-! ## Soundness -/

/-- Tags that a text is read to have. -/
structure Sound (ends : Text → Text → Bool) (markup : Text) (tags : List Tag) : Prop where
  /-- The tags come one after the other, and none is empty. -/
  nonempty : ∀ tag ∈ tags, tag.start < tag.stop
  ordered : tags.Pairwise fun tag next => tag.stop ≤ next.start
  /-- Each begins with `<` and its name, and ends with `>`. -/
  stands : ∀ tag ∈ tags, IsTagName tag.rawName ∧ ∃ inner,
    Style.Octets.slice markup tag.start tag.stop = .ok ('<' :: (tag.rawName ++ inner ++ ['>']))
  /-- Its attributes stand in it, behind the name, one after the other, and none is empty. -/
  attributesOrdered : ∀ tag ∈ tags, tag.attributes.Pairwise fun a next => a.stop ≤ next.start
  attributesStand : ∀ tag ∈ tags, ∀ a ∈ tag.attributes, a.raw ≠ []
    ∧ Style.Octets.slice markup a.start a.stop = .ok a.raw
    ∧ tag.start + size ('<' :: tag.rawName) ≤ a.start ∧ a.start < a.stop ∧ a.stop < tag.stop
  /-- None begins in a comment that is met outside of tags. -/
  outsideComments : ∀ start stop, Met ends markup tags start stop →
    ∀ tag ∈ tags, ¬ Within tag.start start stop
  /-- None begins in the text of an element whose content is no markup. -/
  outsideContent : ∀ tag ∈ tags, tag.holdsText = true → ∃ stop, Content ends markup tag stop
    ∧ ∀ next ∈ tags, ¬ Within next.start tag.stop stop
  /-- And wherever else a tag can be read, it is one of these, or begins in one of these. -/
  complete : ∀ front s, markup = front ++ '<' :: s → (Markup.readTag? s).isSome = true →
    (∃ tag ∈ tags, Within (size front) tag.start tag.stop)
    ∨ (∃ start stop, Met ends markup tags start stop ∧ Within (size front) start stop)
    ∨ ∃ tag ∈ tags, tag.holdsText = true ∧ ∃ stop, Content ends markup tag stop
      ∧ Within (size front) tag.stop stop

/-! ## Regions -/

/-- What markup falls into, and the places between which it stands. -/
inductive Region
  | comment (start stop : Nat)
  /-- A tag, and the place from which on the next one is looked for. -/
  | tag (tag : Tag) (stop : Nat)

namespace Region

def start : Region → Nat
  | .comment p _ => p
  | .tag t _ => t.start

def stop : Region → Nat
  | .comment _ q => q
  | .tag _ q => q

def tag? : Region → Option Tag
  | .comment _ _ => none
  | .tag t _ => some t

/-- The region is the text `t` between `front` and `rest`. -/
inductive Stands (front : Text) : Region → Text → Text → Prop
  | comment {t rest : Text} : IsComment t rest →
      Stands front (.comment (size front) (size (front ++ t))) t rest
  | tag {tag : Tag} {inner t rest : Text} : tag.Stands front inner →
      (tag.holdsText = false → t = []) → (tag.holdsText = true → UpTo (endTagOpens tag.name) t rest) →
      Stands front (.tag tag (size (front ++ ('<' :: (tag.rawName ++ inner ++ ['>']) ++ t))))
        ('<' :: (tag.rawName ++ inner ++ ['>']) ++ t) rest

end Region

/-- The tags among regions. -/
def tagsOf (regions : List Region) : List Tag := regions.filterMap Region.tag?

theorem mem_tagsOf {regions : List Region} {tag : Tag} :
    tag ∈ tagsOf regions ↔ ∃ stop, Region.tag tag stop ∈ regions := by
  rw [tagsOf, List.mem_filterMap]
  constructor
  · rintro ⟨r, hr, htag⟩
    cases r with
    | comment => simp [Region.tag?] at htag
    | tag t stop =>
      obtain rfl := Option.some.inj htag
      exact ⟨stop, hr⟩
  · rintro ⟨stop, hr⟩
    exact ⟨_, hr, rfl⟩

/-- Whether a comment or a tag begins here. -/
def Begins (s : Text) : Prop :=
  "<!--".toList <+: s ∨ ∃ s', s = '<' :: s' ∧ (Markup.readTag? s').isSome = true

theorem begins_cons_iff {c : Char} {s : Text} : Begins (c :: s)
    ↔ c = '<' ∧ ((after? "!--" s).isSome = true ∨ (Markup.readTag? s).isSome = true) := by
  have hcomment : "<!--".toList <+: c :: s ↔ c = '<' ∧ (after? "!--" s).isSome = true := by
    have hmark : "<!--".toList = '<' :: "!--".toList := rfl
    rw [hmark, List.cons_prefix_cons, eq_comm, ← startsWith_iff]
    rfl
  have htag : (∃ s', c :: s = '<' :: s' ∧ (Markup.readTag? s').isSome = true)
      ↔ c = '<' ∧ (Markup.readTag? s).isSome = true := by
    constructor
    · rintro ⟨s', hs, hread⟩
      obtain ⟨rfl, rfl⟩ := List.cons.inj hs
      exact ⟨rfl, hread⟩
    · rintro ⟨rfl, hread⟩
      exact ⟨s, rfl, hread⟩
  rw [Begins, hcomment, htag, ← and_or_left]

/-- The regions of a text behind `front`. -/
inductive Laid : Text → Text → List Region → Prop
  | done (front : Text) : Laid front [] []
  | skip {front s : Text} {c : Char} {regions : List Region} : ¬ Begins (c :: s) →
      Laid (front ++ [c]) s regions → Laid front (c :: s) regions
  | region {front t rest : Text} {r : Region} {regions : List Region} : r.Stands front t rest →
      Laid (front ++ t) rest regions → Laid front (t ++ rest) (r :: regions)

/-! ## Where regions stand -/

variable {front markup s t rest inner : Text} {r r' : Region} {regions : List Region} {tag : Tag} {p q : Nat}

theorem Region.Stands.bounds (h : r.Stands front t rest) :
    r.start = size front ∧ r.stop = size (front ++ t) ∧ t ≠ [] := by
  cases h with
  | comment h =>
    refine ⟨rfl, rfl, ?_⟩
    cases h <;> simp
  | tag h => exact ⟨h.start_eq, rfl, by simp⟩

theorem lt_of_ne_nil (front : Text) (h : t ≠ []) : size front < size (front ++ t) := by
  have := Style.Octets.size_pos h
  rw [Style.Octets.size_append]
  omega

namespace Laid

theorem size_le_start (h : Laid front s regions) : ∀ r ∈ regions, size front ≤ r.start := by
  induction h with
  | done => simp
  | skip _ _ ih =>
    intro r hr
    have := ih r hr
    rw [Style.Octets.size_append] at this
    omega
  | region hr _ ih =>
    rw [List.forall_mem_cons]
    refine ⟨hr.bounds.1.ge, fun r hr => ?_⟩
    have := ih r hr
    rw [Style.Octets.size_append] at this
    omega

/-- Regions follow each other without overlap. -/
theorem pairwise (h : Laid front s regions) : regions.Pairwise fun r next => r.stop ≤ next.start := by
  induction h with
  | done => exact .nil
  | skip _ _ ih => exact ih
  | region hr h ih =>
    refine .cons (fun next hnext => ?_) ih
    rw [hr.bounds.2.1]
    exact h.size_le_start next hnext

/-- Each region stands in the text. -/
theorem stands (h : Laid front s regions) : ∀ r ∈ regions, ∃ before t rest,
    front ++ s = before ++ t ++ rest ∧ r.Stands before t rest := by
  induction h with
  | done => simp
  | skip _ _ ih => simpa using ih
  | @region front t rest r regions hr _ ih =>
    rw [List.forall_mem_cons]
    exact ⟨⟨front, t, rest, (List.append_assoc ..).symm, hr⟩, by simpa using ih⟩

/-- Whatever begins, begins in a region. -/
theorem covers (h : Laid front s regions) : ∀ x y, s = x ++ y → Begins y →
    ∃ r ∈ regions, Within (size (front ++ x)) r.start r.stop := by
  induction h with
  | done =>
    intro x y hsplit hy
    rw [(List.append_eq_nil_iff.1 hsplit.symm).2] at hy
    simp [Begins] at hy
  | @skip front s c regions hc _ ih =>
    intro x y hsplit hy
    cases x with
    | nil =>
      rw [List.nil_append] at hsplit
      exact absurd (hsplit ▸ hy) hc
    | cons d x =>
      obtain ⟨rfl, hs⟩ := List.cons.inj hsplit
      simpa using ih x y hs hy
  | @region front t rest r regions hr _ ih =>
    intro x y hsplit hy
    have later (x' : Text) (hx : x = t ++ x') (hrest : rest = x' ++ y) :
        ∃ r' ∈ r :: regions, Within (size (front ++ x)) r'.start r'.stop := by
      obtain ⟨r', hr', hwithin⟩ := ih x' y hrest hy
      exact ⟨r', List.mem_cons_of_mem _ hr', by rwa [hx, ← List.append_assoc]⟩
    rcases List.append_eq_append_iff.1 hsplit with ⟨x', hx, hrest⟩ | ⟨t', ht, hrest⟩
    · exact later x' hx hrest
    · by_cases hnil : t' = []
      · subst hnil
        exact later [] (by simpa using ht.symm) hrest.symm
      · obtain ⟨hstart, hstop, -⟩ := hr.bounds
        refine ⟨r, List.mem_cons_self, ?_, ?_⟩
        · rw [hstart, Style.Octets.size_append]
          exact Nat.le_add_right _ _
        · rw [hstop, ht, ← List.append_assoc]
          exact lt_of_ne_nil _ hnil

/-- Two regions with a place in common are one. -/
theorem eq_of_within (h : Laid front s regions) (hr : r ∈ regions) (hr' : r' ∈ regions)
    (hp : Within p r.start r.stop) (hp' : Within p r'.start r'.stop) : r = r' := by
  have hsymm : Std.Symm fun r r' : Region => Within p r.start r.stop → Within p r'.start r'.stop → r = r' :=
    ⟨fun _ _ h hp hp' => (h hp' hp).symm⟩
  have hpair : regions.Pairwise fun r r' => Within p r.start r.stop → Within p r'.start r'.stop → r = r' := by
    refine h.pairwise.imp fun hle hp hp' => absurd ?_ (Nat.lt_irrefl p)
    exact (hp.2.trans_le hle).trans_le hp'.1
  exact List.Pairwise.forall_of_forall (fun _ _ _ _ => rfl) hpair hr hr' hp hp'

theorem within_start (h : Laid front s regions) (hr : r ∈ regions) : Within r.start r.start r.stop := by
  obtain ⟨before, t, rest, -, hstands⟩ := h.stands r hr
  obtain ⟨hstart, hstop, ht⟩ := hstands.bounds
  refine ⟨le_rfl, ?_⟩
  rw [hstart, hstop]
  exact lt_of_ne_nil _ ht

/-- A comment among the regions is one. -/
theorem isComment (h : Laid [] markup regions) (hr : .comment p q ∈ regions) :
    Between IsComment markup p q := by
  obtain ⟨before, t, rest, hmarkup, hstands⟩ := h.stands _ hr
  cases hstands with
  | comment hcomment => exact ⟨before, t, rest, hmarkup, rfl, rfl, hcomment⟩

end Laid

/-- What a tag among the regions is. -/
structure Tag.Lies (markup : Text) (tag : Tag) (q : Nat) : Prop where
  stands : ∃ before inner rest, markup = before ++ '<' :: (tag.rawName ++ inner ++ ['>']) ++ rest
    ∧ tag.Stands before inner
  lt : tag.start < tag.stop
  le : tag.stop ≤ q
  bare : tag.holdsText = false → q = tag.stop
  content : tag.holdsText = true → Content endTagOpens markup tag q

namespace Laid

theorem lies (h : Laid [] markup regions) (hr : .tag tag q ∈ regions) : tag.Lies markup q := by
  obtain ⟨before, t, rest, hmarkup, hstands⟩ := h.stands _ hr
  cases hstands with
  | @tag _ inner t _ htag hbare hcontent =>
    have hstop := htag.stop_eq
    have hsplit : markup = before ++ '<' :: (tag.rawName ++ inner ++ ['>']) ++ t ++ rest := by
      simpa using hmarkup
    have hq : before ++ ('<' :: (tag.rawName ++ inner ++ ['>']) ++ t)
        = before ++ '<' :: (tag.rawName ++ inner ++ ['>']) ++ t := (List.append_assoc ..).symm
    rw [hq]
    refine ⟨⟨before, inner, t ++ rest, ?_, htag⟩, ?_, ?_, fun hno => ?_, fun hyes => ?_⟩
    · rw [hsplit, List.append_assoc]
    · rw [hstop, htag.start_eq]
      exact lt_of_ne_nil _ (List.cons_ne_nil _ _)
    · rw [hstop, Style.Octets.size_append _ t]
      exact Nat.le_add_right _ _
    · rw [hbare hno, List.append_nil, hstop]
    · exact ⟨_, t, rest, hsplit, hstop, rfl, hcontent hyes⟩

theorem exists_lies (h : Laid [] markup regions) (htag : tag ∈ tagsOf regions) :
    ∃ q, .tag tag q ∈ regions ∧ tag.Lies markup q := by
  obtain ⟨q, hr⟩ := mem_tagsOf.1 htag
  exact ⟨q, hr, h.lies hr⟩

/-- A comment that is met is a region, if those before it that are regions are met. -/
theorem mem_of_met (h : Laid [] markup regions)
    (hbefore : ∀ o < p, ∀ q, .comment o q ∈ regions → Met endTagOpens markup (tagsOf regions) o q)
    (hmet : Met endTagOpens markup (tagsOf regions) p q) : .comment p q ∈ regions := by
  rw [Met] at hmet
  obtain ⟨⟨before, t, rest, hmarkup, hp, hq, ht⟩, htags, htexts, hcomments⟩ := hmet
  obtain ⟨r, hr, hwithin⟩ := h.covers before (t ++ rest) (by rw [hmarkup, List.append_assoc]) (.inl ht.begins)
  rw [List.nil_append, ← hp] at hwithin
  cases r with
  | tag tag stop =>
    have hlies := h.lies hr
    have hmem : tag ∈ tagsOf regions := mem_tagsOf.2 ⟨stop, hr⟩
    have hbehind : tag.stop ≤ p := Nat.le_of_not_lt fun hlt => htags tag hmem ⟨hwithin.1, hlt⟩
    cases htext : tag.holdsText with
    | false => exact absurd (hwithin.2.trans_eq (hlies.bare htext)) (Nat.not_lt.2 hbehind)
    | true => exact absurd ⟨hbehind, hwithin.2⟩ (htexts tag hmem htext stop (hlies.content htext))
  | comment o stop =>
    rcases Nat.lt_or_eq_of_le hwithin.1 with hlt | heq
    · have hle := hcomments o stop hlt (hbefore o hlt stop hr)
      exact absurd hwithin.2 (Nat.not_lt.2 hle)
    · obtain rfl : o = p := heq
      have hunique := Between.unique IsComment.unique (h.isComment hr) ⟨before, t, rest, hmarkup, hp, hq, ht⟩
      exact hunique ▸ hr

/-- A comment that is a region is met, if those before it that are met are regions. -/
theorem met_of_mem (h : Laid [] markup regions)
    (hbefore : ∀ o < p, ∀ q, Met endTagOpens markup (tagsOf regions) o q → .comment o q ∈ regions)
    (hr : .comment p q ∈ regions) : Met endTagOpens markup (tagsOf regions) p q := by
  have hstart := h.within_start hr
  rw [Met]
  refine ⟨h.isComment hr, fun tag htag hwithin => ?_, fun tag htag htext stop hcontent hwithin => ?_,
    fun o stop ho hmet => Nat.le_of_not_lt fun hlt => ?_⟩
  · obtain ⟨stop, hr', hlies⟩ := h.exists_lies htag
    have heq := h.eq_of_within hr hr' hstart ⟨hwithin.1, hwithin.2.trans_le hlies.le⟩
    cases heq
  · obtain ⟨stop', hr', hlies⟩ := h.exists_lies htag
    obtain rfl := hcontent.unique (hlies.content htext)
    have heq := h.eq_of_within hr hr' hstart ⟨hlies.lt.le.trans hwithin.1, hwithin.2⟩
    cases heq
  · have heq := h.eq_of_within hr (hbefore o ho stop hmet) hstart ⟨ho.le, hlt⟩
    obtain ⟨rfl, -⟩ := Region.comment.inj heq
    exact Nat.lt_irrefl _ ho

/-- The comments among the regions are those that are met. -/
theorem met_iff (h : Laid [] markup regions) :
    Met endTagOpens markup (tagsOf regions) p q ↔ .comment p q ∈ regions := by
  induction p using Nat.strong_induction_on generalizing q with
  | _ p ih =>
    exact ⟨h.mem_of_met fun o ho q hr => (ih o ho).2 hr, h.met_of_mem fun o ho q hmet => (ih o ho).1 hmet⟩

end Laid

/-! ## Tags that regions are laid out around -/

theorem Placed.pairwise {as : List Attribute} (h : Placed front as inner) :
    as.Pairwise (fun a next => a.stop ≤ next.start) ∧ ∀ a ∈ as, size front ≤ a.start := by
  induction h with
  | nil => exact ⟨.nil, by simp⟩
  | @cons front gap name raw inner as _ _ ih =>
    obtain ⟨hpair, hstart⟩ := ih
    refine ⟨.cons hstart hpair, List.forall_mem_cons.2 ⟨?_, fun a ha => ?_⟩⟩
    · simp only [Style.Octets.size_append]
      omega
    · have := hstart a ha
      simp only [Style.Octets.size_append] at this
      omega

/-- An attribute stands in the text that attributes are placed in. -/
theorem Placed.stands {as : List Attribute} (h : Placed front as inner) : ∀ a ∈ as, a.raw ≠ []
    ∧ ∃ x y, front ++ inner = x ++ a.raw ++ y ∧ a.start = size x ∧ a.stop = size (x ++ a.raw) := by
  induction h with
  | nil => simp
  | @cons front gap name raw inner as hraw _ ih =>
    refine List.forall_mem_cons.2 ⟨⟨hraw, front ++ gap, inner, by simp, rfl, rfl⟩, ?_⟩
    simpa using ih

namespace Tag.Lies

theorem slice (h : tag.Lies markup q) : IsTagName tag.rawName ∧ ∃ inner,
    Style.Octets.slice markup tag.start tag.stop = .ok ('<' :: (tag.rawName ++ inner ++ ['>'])) := by
  obtain ⟨before, inner, rest, hmarkup, hstands⟩ := h.stands
  refine ⟨hstands.named, inner, ?_⟩
  rw [hstands.start_eq, hstands.stop_eq, hmarkup, List.append_assoc, Style.Octets.size_append]
  exact Style.Octets.slice_append ..

theorem ordered (h : tag.Lies markup q) : tag.attributes.Pairwise fun a next => a.stop ≤ next.start := by
  obtain ⟨_, _, _, _, hstands⟩ := h.stands
  exact hstands.placed.pairwise.1

theorem attributes (h : tag.Lies markup q) : ∀ a ∈ tag.attributes, a.raw ≠ []
    ∧ Style.Octets.slice markup a.start a.stop = .ok a.raw
    ∧ tag.start + size ('<' :: tag.rawName) ≤ a.start ∧ a.start < a.stop ∧ a.stop < tag.stop := by
  obtain ⟨before, inner, rest, hmarkup, hstands⟩ := h.stands
  intro a ha
  obtain ⟨hraw, x, y, hsplit, hstart, hstop⟩ := hstands.placed.stands a ha
  have hbehind := hstands.placed.pairwise.2 a ha
  have hshape : markup = x ++ (a.raw ++ (y ++ '>' :: rest)) := by
    rw [← List.append_assoc, ← List.append_assoc, ← hsplit, hmarkup]
    simp
  have hsize := congrArg size hsplit
  refine ⟨hraw, ?_, ?_, ?_, ?_⟩
  · rw [hstart, hstop, hshape, Style.Octets.size_append]
    exact Style.Octets.slice_append ..
  · rwa [hstands.start_eq, ← Style.Octets.size_append]
  · rw [hstart, hstop]
    exact lt_of_ne_nil x hraw
  · rw [hstop, hstands.stop_eq]
    have hbracket := lt_of_ne_nil (x ++ a.raw ++ y) (List.cons_ne_nil '>' [])
    rw [← hsplit] at hbracket
    refine Nat.lt_of_le_of_lt ?_ (lt_of_lt_of_eq hbracket (by simp))
    rw [hsplit, Style.Octets.size_append _ y]
    exact Nat.le_add_right _ _

end Tag.Lies

namespace Laid

theorem ordered (h : Laid [] markup regions) :
    (tagsOf regions).Pairwise fun tag next => tag.stop ≤ next.start := by
  rw [tagsOf, List.pairwise_filterMap]
  refine h.pairwise.imp_of_mem fun {r r'} hr hr' hle tag htag next hnext => ?_
  cases r with
  | comment => cases htag
  | tag t q =>
    cases r' with
    | comment => cases hnext
    | tag t' q' =>
      obtain rfl : t = tag := Option.some.inj htag
      obtain rfl : t' = next := Option.some.inj hnext
      exact (h.lies hr).le.trans hle

/-- A place that a region holds is in a tag, in a comment that is met, or in text that is no markup. -/
theorem cases_of_within (h : Laid [] markup regions) (hr : r ∈ regions) (hp : Within p r.start r.stop) :
    (∃ tag ∈ tagsOf regions, Within p tag.start tag.stop)
    ∨ (∃ start stop, Met endTagOpens markup (tagsOf regions) start stop ∧ Within p start stop)
    ∨ ∃ tag ∈ tagsOf regions, tag.holdsText = true ∧ ∃ stop, Content endTagOpens markup tag stop
      ∧ Within p tag.stop stop := by
  cases r with
  | comment start stop => exact .inr (.inl ⟨start, stop, h.met_iff.2 hr, hp⟩)
  | tag tag q =>
    have hlies := h.lies hr
    have hmem : tag ∈ tagsOf regions := mem_tagsOf.2 ⟨q, hr⟩
    rcases Nat.lt_or_ge p tag.stop with hlt | hge
    · exact .inl ⟨tag, hmem, hp.1, hlt⟩
    · cases htext : tag.holdsText with
      | false => exact absurd (hp.2.trans_eq (hlies.bare htext)) (Nat.not_lt.2 hge)
      | true => exact .inr (.inr ⟨tag, hmem, htext, q, hlies.content htext, hge, hp.2⟩)

theorem sound (h : Laid [] markup regions) : Sound endTagOpens markup (tagsOf regions) where
  nonempty := by
    intro tag htag
    obtain ⟨q, -, hlies⟩ := h.exists_lies htag
    exact hlies.lt
  ordered := h.ordered
  stands := by
    intro tag htag
    obtain ⟨q, -, hlies⟩ := h.exists_lies htag
    exact hlies.slice
  attributesOrdered := by
    intro tag htag
    obtain ⟨q, -, hlies⟩ := h.exists_lies htag
    exact hlies.ordered
  attributesStand := by
    intro tag htag
    obtain ⟨q, -, hlies⟩ := h.exists_lies htag
    exact hlies.attributes
  outsideComments := by
    intro start stop hmet tag htag hwithin
    obtain ⟨q, hr, hlies⟩ := h.exists_lies htag
    have heq := h.eq_of_within hr (h.met_iff.1 hmet) (h.within_start hr) hwithin
    cases heq
  outsideContent := by
    intro tag htag htext
    obtain ⟨q, hr, hlies⟩ := h.exists_lies htag
    refine ⟨q, hlies.content htext, fun next hnext hwithin => ?_⟩
    obtain ⟨q', hr', hlies'⟩ := h.exists_lies hnext
    have heq := h.eq_of_within hr' hr (h.within_start hr') ⟨hlies.lt.le.trans hwithin.1, hwithin.2⟩
    obtain ⟨rfl, -⟩ := Region.tag.inj heq
    exact Nat.not_lt.2 hwithin.1 hlies'.lt
  complete := by
    intro before s hmarkup hread
    obtain ⟨r, hr, hwithin⟩ := h.covers before _ hmarkup (.inr ⟨s, rfl, hread⟩)
    exact h.cases_of_within hr hwithin

end Laid

/-! ## Two readings of end tags -/

section

variable {ends ends' : Text → Text → Bool} {tags : List Tag}

/-- The content of the elements is the same by either reading. -/
def SameContent (ends ends' : Text → Text → Bool) (markup : Text) (tags : List Tag) : Prop :=
  ∀ tag ∈ tags, tag.holdsText = true → ∀ stop, Content ends markup tag stop ↔ Content ends' markup tag stop

/-- Where both readings agree on every rest of the markup. -/
theorem SameContent.of_suffixes
    (h : ∀ tag ∈ tags, tag.holdsText = true → ∀ u, u <:+ markup → ends tag.name u = ends' tag.name u) :
    SameContent ends ends' markup tags := by
  intro tag htag htext stop
  constructor
  · exact Between.imp fun hsuffix => UpTo.congr fun u hu => h tag htag htext u (hu.trans hsuffix)
  · exact Between.imp fun hsuffix => UpTo.congr fun u hu => (h tag htag htext u (hu.trans hsuffix)).symm

theorem SameContent.met_iff (h : SameContent ends ends' markup tags) :
    Met ends markup tags p q ↔ Met ends' markup tags p q := by
  induction p using Nat.strong_induction_on generalizing q with
  | _ p ih =>
    rw [Met, Met]
    refine and_congr_right fun _ => and_congr_right fun _ => and_congr ?_ ?_
    · refine forall₂_congr fun tag htag => forall_congr' fun htext => forall_congr' fun stop => ?_
      rw [h tag htag htext stop]
    · refine forall₂_congr fun o stop => forall_congr' fun ho => ?_
      rw [ih o ho]

theorem Sound.congr (h : SameContent ends ends' markup tags) (hsound : Sound ends markup tags) :
    Sound ends' markup tags where
  nonempty := hsound.nonempty
  ordered := hsound.ordered
  stands := hsound.stands
  attributesOrdered := hsound.attributesOrdered
  attributesStand := hsound.attributesStand
  outsideComments := fun start stop hmet => hsound.outsideComments start stop (h.met_iff.2 hmet)
  outsideContent := by
    intro tag htag htext
    obtain ⟨stop, hcontent, houtside⟩ := hsound.outsideContent tag htag htext
    exact ⟨stop, (h tag htag htext stop).1 hcontent, houtside⟩
  complete := by
    intro before s hmarkup hread
    refine (hsound.complete before s hmarkup hread).imp_right (Or.imp ?_ ?_)
    · rintro ⟨start, stop, hmet, hwithin⟩
      exact ⟨start, stop, h.met_iff.1 hmet, hwithin⟩
    · rintro ⟨tag, htag, htext, stop, hcontent, hwithin⟩
      exact ⟨tag, htag, htext, stop, (h tag htag htext stop).1 hcontent, hwithin⟩

end

end WidgetCompiler.Markup.Octets
