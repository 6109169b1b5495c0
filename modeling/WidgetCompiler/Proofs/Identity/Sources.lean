import WidgetCompiler.Identity.Sources
import WidgetCompiler.Proofs.Identity.Plain
import WidgetCompiler.Proofs.Markup.Characters

/-!
# What is gathered of an identity

The values in the comment of the markup are pieces of the markup, and filling gaps moves values from
one record to another.  So what is gathered from all sources is made of what the given values, the
markup and the proposals of the service are made of (`madeOf_gatherHints`).
-/

namespace WidgetCompiler

open Text

section

variable {q : Char → Bool} {line key value markup style behavior : Text} {h a b : IdentityHints}

theorem madeOf_keyValue? (hline : MadeOf q line) (h : keyValue? line = some (key, value)) :
    MadeOf q value := by
  unfold keyValue? at h
  split at h
  · next hcut =>
    split at h
    · simp at h
    · obtain rfl := (Prod.mk.inj (Option.some.inj h)).2
      exact (hline.cutAt? hcut).2.trim
  · simp at h

theorem keeps_identityComment : Pattern.Keeps q (MadeOf q) identityComment := by
  intro prev s a rest hs h
  unfold identityComment at h
  split at h
  · next hopen =>
    split at h
    · next hmeta =>
      split at h
      · exact ((hs.after? hopen).afterBlanks.after? hmeta).cut? h
      · simp at h
    · simp at h
  · simp at h

namespace IdentityHints.MadeOf

theorem empty : IdentityHints.MadeOf q {} := ⟨by simp, by simp, by simp, by simp, by simp⟩

theorem set (hh : h.MadeOf q) (hvalue : Text.MadeOf q value) (key : Text) :
    (h.set key value).MadeOf q := by
  have hsome : ∀ v ∈ some value, Text.MadeOf q v := fun v hv => Option.some.inj hv ▸ hvalue
  unfold IdentityHints.set
  split_ifs
  · exact ⟨hsome, hh.title, hh.description, hh.category, hh.icon⟩
  · exact ⟨hh.name, hsome, hh.description, hh.category, hh.icon⟩
  · exact ⟨hh.name, hh.title, hsome, hh.category, hh.icon⟩
  · exact ⟨hh.name, hh.title, hh.description, hsome, hh.icon⟩
  · exact ⟨hh.name, hh.title, hh.description, hh.category, hsome⟩
  · exact hh

theorem or (ha : a.MadeOf q) (hb : b.MadeOf q) : (a.or b).MadeOf q := by
  have hor {u w : Option Text} (hu : ∀ v ∈ u, Text.MadeOf q v) (hw : ∀ v ∈ w, Text.MadeOf q v) :
      ∀ v ∈ (nonBlank? u <|> nonBlank? w), Text.MadeOf q v := by
    intro v hv
    rw [Option.orElse_eq_orElse, Option.orElse_eq_or] at hv
    rcases Option.or_eq_some_iff.1 hv with hv | ⟨-, hv⟩
    · exact madeOf_of_mem_nonBlank? hu v hv
    · exact madeOf_of_mem_nonBlank? hw v hv
  exact ⟨hor ha.name hb.name, hor ha.title hb.title, hor ha.description hb.description,
    hor ha.category hb.category, hor ha.icon hb.icon⟩

end IdentityHints.MadeOf

/-- The record in a comment is made of what the lines of the comment are made of. -/
theorem madeOf_hintsOfLines {ls : List Text} (h : ∀ l ∈ ls, MadeOf q l) :
    (hintsOfLines ls).MadeOf q := by
  have hvalues : ∀ entry ∈ ls.filterMap keyValue?, MadeOf q entry.2 := by
    intro entry hentry
    obtain ⟨line, hline, hread⟩ := List.mem_filterMap.1 hentry
    exact madeOf_keyValue? (h line hline) hread
  have along (entries : List (Text × Text)) (hentries : ∀ entry ∈ entries, MadeOf q entry.2)
      (record : IdentityHints) (hrecord : record.MadeOf q) :
      (entries.foldl (fun record entry => record.set entry.1 entry.2) record).MadeOf q := by
    induction entries generalizing record with
    | nil => exact hrecord
    | cons entry entries ih =>
      obtain ⟨hentry, hentries⟩ := List.forall_mem_cons.1 hentries
      exact ih hentries _ (hrecord.set hentry entry.1)
  exact along _ hvalues _ .empty

theorem madeOf_hintsInMarkup? (hmarkup : MadeOf q markup) :
    ∀ hints ∈ hintsInMarkup? markup, hints.MadeOf q := by
  intro hints hhints
  obtain ⟨⟨before, body, rest⟩, hfind, rfl⟩ := Option.map_eq_some_iff.1 hhints
  have hbody : MadeOf q body := (keeps_identityComment.find? hmarkup hfind).2.1
  exact madeOf_hintsOfLines fun l hl => hbody.lines hl

/-- What is gathered is made of what the sources are made of. -/
theorem madeOf_gatherHints {explicit : IdentityHints} (hexplicit : explicit.MadeOf q)
    (hmarkup : MadeOf q markup) {inference : Option Inference}
    (hinference : ∀ service ∈ inference, ∀ proposed ∈ service markup style behavior,
      proposed.MadeOf q) :
    (gatherHints explicit markup style behavior inference).MadeOf q := by
  have hknown : (knownHints explicit markup).MadeOf q := by
    refine hexplicit.or ?_
    cases hhints : hintsInMarkup? markup with
    | none => exact .empty
    | some hints => exact madeOf_hintsInMarkup? hmarkup hints hhints
  simp only [gatherHints]
  split_ifs
  · exact hknown
  · split
    · split
      · next hproposed => exact hknown.or (hinference _ rfl _ hproposed)
      · exact hknown
    · exact hknown

end

end WidgetCompiler
