import CallGraph.Proofs.Drawing
import Mathlib.Data.List.Induction

/-!
How labels are escaped.

A label is escaped by three replacements of whole texts, one after the other. This comes to a
substitution of its characters only because backslashes are replaced first: the later replacements
put backslashes in that no replacement must see again (`escape_eq_flatMap`).

Whether a quote ends a text is a matter of the run of backslashes before it: it does if their number
is even. `Quotable` says that no quote in a text ends it and that a quote after it does. It is kept
by every piece that stands for a character (`Quotable.append_substitute`), so it holds of every
escaped label.
-/

namespace CallGraph.Dot

/-! ## One substitution -/

/-- What stands for a character of a label. -/
def substitute (c : Char) : List Char :=
  if c = '\\' then ['\\', '\\'] else if c = '"' then ['\\', '"']
  else if c = '\n' then ['\\', 'n'] else [c]

theorem escape_singleton_eq (c : Char) : escape [c] = substitute c := by
  unfold substitute
  split
  · next h => subst h; rfl
  next hslash =>
  split
  · next h => subst h; rfl
  next hquote =>
  split
  · next h => subst h; rfl
  next hline => exact escape_singleton hslash hquote hline

theorem escape_eq_flatMap (cs : List Char) : escape cs = cs.flatMap substitute := by
  induction cs with
  | nil => rfl
  | cons c cs ih =>
    rw [← List.singleton_append, escape_append, ih, escape_singleton_eq, List.singleton_append,
      List.flatMap_cons]

/-! ## Runs of backslashes -/

/-- How many backslashes a text ends in. -/
def slashRun (cs : List Char) : Nat := (cs.reverse.takeWhile (· == '\\')).length

theorem slashRun_slash (cs : List Char) : slashRun (cs ++ ['\\']) = slashRun cs + 1 := by
  simp [slashRun]

theorem slashRun_other {c : Char} (h : c ≠ '\\') (cs : List Char) : slashRun (cs ++ [c]) = 0 := by
  simp [slashRun, h]

/-- Every quote in a text comes after an odd number of backslashes. -/
def QuotesEscaped (cs : List Char) : Prop :=
  ∀ before after, cs = before ++ '"' :: after → slashRun before % 2 = 1

theorem quotesEscaped_nil : QuotesEscaped [] := by
  intro before after h
  simp at h

/-- One more character at the end matters only if it is a quote. -/
theorem QuotesEscaped.snoc {cs : List Char} {c : Char} (h : QuotesEscaped cs)
    (hc : c = '"' → slashRun cs % 2 = 1) : QuotesEscaped (cs ++ [c]) := by
  intro before after heq
  rcases List.eq_nil_or_concat after with rfl | ⟨after', d, rfl⟩
  · obtain ⟨rfl, hlast⟩ := List.append_inj' heq rfl
    exact hc (List.cons.inj hlast).1
  · rw [List.concat_eq_append, ← List.cons_append, ← List.append_assoc] at heq
    exact h before after' (List.append_inj' heq rfl).1

/-- A text that can stand between quotes: it is on one line, every quote in it is escaped, and a quote
after it is not. -/
structure Quotable (cs : List Char) : Prop where
  oneLine : '\n' ∉ cs
  quotes : QuotesEscaped cs
  ending : slashRun cs % 2 = 0

/-- What stands for a character takes one text that can stand between quotes to another. The cases
are those of `substitute`. -/
theorem Quotable.append_substitute {cs : List Char} (h : Quotable cs) (c : Char) :
    Quotable (cs ++ substitute c) := by
  have hslash : QuotesEscaped (cs ++ ['\\']) := h.quotes.snoc (by simp)
  have hodd : slashRun (cs ++ ['\\']) % 2 = 1 := by
    have := h.ending
    rw [slashRun_slash]
    omega
  -- the pieces of two characters are a backslash and one character more
  have hpiece : ∀ d, d ≠ '\n' → slashRun (cs ++ ['\\'] ++ [d]) % 2 = 0 →
      Quotable (cs ++ ['\\', d]) := by
    intro d hd hrun
    rw [← List.append_cons] at hrun
    refine ⟨?_, ?_, hrun⟩
    · simp [h.oneLine, Ne.symm hd]
    · rw [List.append_cons]
      exact hslash.snoc fun _ => hodd
  unfold substitute
  split
  · refine hpiece '\\' (by decide) ?_
    rw [slashRun_slash]
    omega
  split
  · exact hpiece '"' (by decide) (by rw [slashRun_other (by decide)])
  split
  · exact hpiece 'n' (by decide) (by rw [slashRun_other (by decide)])
  next hslash hquote hline =>
  refine ⟨by simp [h.oneLine, Ne.symm hline], h.quotes.snoc fun hc => absurd hc hquote, ?_⟩
  rw [slashRun_other hslash]

theorem quotable_escape (cs : List Char) : Quotable (escape cs) := by
  induction cs using List.reverseRecOn with
  | nil => exact ⟨by simp [escape, replace], quotesEscaped_nil, rfl⟩
  | append_singleton cs c ih =>
    rw [escape_append, escape_singleton_eq]
    exact ih.append_substitute c

/-! ## Undoing the escapes -/

/-- Undoes escapes from left to right; none if a backslash stands before anything but what is
escaped. -/
def unescape : List Char → Option (List Char)
  | [] => some []
  | '\\' :: c :: cs => (unescape? c).bind fun d => (unescape cs).map (d :: ·)
  | c :: cs => if c = '\\' then none else (unescape cs).map (c :: ·)

theorem unescape_substitute (c : Char) (cs : List Char) :
    unescape (substitute c ++ cs) = (unescape cs).map (c :: ·) := by
  unfold substitute
  split
  · next h => subst h; rfl
  next hslash =>
  split
  · next h => subst h; rfl
  split
  · next h => subst h; rfl
  rw [List.singleton_append, unescape, if_neg hslash]
  intro d ds h
  exact absurd h hslash

theorem unescape_escape (cs : List Char) : unescape (escape cs) = some cs := by
  rw [escape_eq_flatMap]
  induction cs with
  | nil => rfl
  | cons c cs ih => rw [List.flatMap_cons, unescape_substitute, ih, Option.map_some]

theorem escapeLabel_injective : Function.Injective escapeLabel := by
  intro s t h
  have hchars : escape s.toList = escape t.toList := String.ofList_injective h
  have hsame : some s.toList = some t.toList := by
    rw [← unescape_escape, ← unescape_escape, hchars]
  exact String.toList_injective (Option.some.inj hsame)

/-- Escaping a label by three replacements is one substitution of its characters: a backslash by two,
a quote by a backslash and a quote, a line end by a backslash and an `n`, and anything else by itself.
The escaped label is on one line; every quote in it comes after an odd number of backslashes, and it
ends in an even number of them, so that the quote that closes it is not escaped. Undoing the escapes
from left to right gives the label back, and no two labels are escaped alike. -/
theorem escapeLabel_is_substitution :
    (∀ s : String,
      (escapeLabel s).toList = s.toList.flatMap (fun c =>
        if c = '\\' then ['\\', '\\'] else if c = '"' then ['\\', '"']
        else if c = '\n' then ['\\', 'n'] else [c]) ∧
      '\n' ∉ (escapeLabel s).toList ∧
      (∀ before after, (escapeLabel s).toList = before ++ '"' :: after →
        slashRun before % 2 = 1) ∧
      slashRun (escapeLabel s).toList % 2 = 0 ∧
      unescape (escapeLabel s).toList = some s.toList) ∧
    Function.Injective escapeLabel := by
  refine ⟨?_, escapeLabel_injective⟩
  intro s
  rw [escapeLabel, String.toList_ofList]
  have hquotable := quotable_escape s.toList
  exact ⟨escape_eq_flatMap s.toList, hquotable.oneLine, hquotable.quotes, hquotable.ending,
    unescape_escape s.toList⟩

end CallGraph.Dot
