import DocAtlas.TypeText.Basic
import Mathlib.Data.List.Chain

/-!
Texts in one piece.

A rendered type is read as its links, and the texts before, between and behind them
(`TypeText.links`, `TypeText.gaps`). How the texts are cut into tokens does not show. Merging puts
every text in one piece and leaves the empty ones out (`TypeText.Merged`), and it keeps the links
and the texts. There is one way to write given links and texts like this
(`TypeText.Merged.eq_ofParts`), so what comes out is the normal form of the tokens.

Tokens are merged from the first one on, each of them behind what has been written (`pushToken`). It
is easier to think of them as put in front, from the last one on (`TypeText.prependToken`). One
token in front and one behind do not get into each other's way (`TypeText.pushToken_prependToken`),
so both come to the same (`TypeText.mergeTexts_eq_foldr`). What one more token in front comes to is
then said once (`TypeText.mergeTexts_cons_cases`), and all facts about merging follow from this by
induction.
-/

set_option autoImplicit false

namespace DocAtlas

/-- Whether a token is text. -/
def TypeToken.isText : TypeToken → Bool
  | .text _ => true
  | .link _ => false

namespace TypeText

/-! ## Links and the texts between them -/

/-- The links of a rendered type, in their order. -/
def links : TypeText → List TypeLink
  | [] => []
  | .text _ :: rest => links rest
  | .link target :: rest => target :: links rest

/-- The texts before, between and behind the links, each of them put together. -/
def gaps : TypeText → List String
  | [] => [""]
  | .text s :: rest => (gaps rest).modifyHead (s ++ ·)
  | .link _ :: rest => "" :: gaps rest

/-- Every text is in one piece: no text is empty, and no two texts stand next to each other. -/
structure Merged (tokens : TypeText) : Prop where
  no_empty : TypeToken.text "" ∉ tokens
  no_neighbours : tokens.IsChain fun a b => ¬ (a.isText ∧ b.isText)

theorem merged_nil : Merged [] := ⟨List.not_mem_nil, .nil⟩

/-- Merged tokens behind a first one: it is no empty text, and no text before a text. -/
theorem merged_cons_iff {token : TypeToken} {rest : TypeText} :
    Merged (token :: rest) ↔
      token ≠ .text "" ∧ (∀ next ∈ rest.head?, ¬ (token.isText ∧ next.isText)) ∧ Merged rest := by
  constructor
  · rintro ⟨no_empty, no_neighbours⟩
    obtain ⟨htoken, hrest⟩ := List.ne_and_not_mem_of_not_mem_cons no_empty
    obtain ⟨hnext, hchain⟩ := List.isChain_cons.mp no_neighbours
    exact ⟨htoken.symm, hnext, hrest, hchain⟩
  · rintro ⟨htoken, hnext, no_empty, no_neighbours⟩
    exact ⟨List.not_mem_cons_of_ne_of_not_mem htoken.symm no_empty,
      List.isChain_cons.mpr ⟨hnext, no_neighbours⟩⟩

/-! ## One more token in front -/

/-- A text in front of what is merged. It begins a text that comes first. -/
def prependText (s : String) : TypeText → TypeText
  | .text t :: more => .text (s ++ t) :: more
  | merged => .text s :: merged

@[simp] theorem prependText_link (s : String) (target : TypeLink) (more : TypeText) :
    prependText s (.link target :: more) = .text s :: .link target :: more := rfl

/-- One more token in front of what is merged; an empty text is left out. -/
def prependToken : TypeToken → TypeText → TypeText
  | .link target, merged => .link target :: merged
  | .text s, merged => if s.isEmpty then merged else prependText s merged

/-- What is written before the last two tokens stays as it is. -/
theorem pushToken_cons (first second : TypeToken) (written : TypeText) (token : TypeToken) :
    pushToken (first :: second :: written) token
      = first :: pushToken (second :: written) token := by
  cases token with
  | link target => rfl
  | text next =>
    -- the last token is the same with and without the first one
    rw [pushToken, pushToken, List.getLast?_cons_cons]
    split
    · rfl
    · split
      · rfl
      · rfl

/-- A link in front is out of reach of what comes behind. -/
theorem pushToken_link (target : TypeLink) (written : TypeText) (token : TypeToken) :
    pushToken (.link target :: written) token = .link target :: pushToken written token := by
  cases written with
  | cons second written => exact pushToken_cons _ _ _ _
  | nil =>
    cases token with
    | link _ => rfl
    | text next =>
      rw [pushToken, pushToken]
      split
      · rfl
      · rfl

/-- **One token in front and one behind: which is first makes no difference.** The two meet only if
there is nothing or a single text between them, and then all texts become one. -/
theorem pushToken_prependToken (first : TypeToken) (written : TypeText) (last : TypeToken) :
    pushToken (prependToken first written) last = prependToken first (pushToken written last) := by
  cases first with
  | link target => exact pushToken_link target written last
  | text s =>
    by_cases hs : s.isEmpty
    · rw [prependToken, prependToken, if_pos hs, if_pos hs]
    · rw [prependToken, prependToken, if_neg hs, if_neg hs]
      cases written with
      | nil =>
        cases last with
        | link target => rfl
        | text next => by_cases hnext : next.isEmpty <;> simp [prependText, pushToken, hnext]
      | cons head more =>
        cases head with
        | link target =>
          rw [pushToken_link, prependText_link, prependText_link, pushToken_cons, pushToken_link]
        | text t =>
          -- the text in front is reached from behind only if it is the last token as well
          cases more with
          | cons second more => rw [pushToken_cons, prependText, pushToken_cons, prependText]
          | nil =>
            cases last with
            | link target => rfl
            | text next =>
              by_cases hnext : next.isEmpty
                <;> simp [prependText, pushToken, hnext, String.append_assoc]

/-- A token in front can wait until all others are written. -/
theorem foldl_pushToken_prependToken (first : TypeToken) (written tokens : TypeText) :
    tokens.foldl pushToken (prependToken first written)
      = prependToken first (tokens.foldl pushToken written) := by
  induction tokens generalizing written with
  | nil => rfl
  | cons next tokens ih => rw [List.foldl_cons, List.foldl_cons, pushToken_prependToken, ih]

/-- Merging can begin with the first token or end with it. -/
theorem mergeTexts_cons (token : TypeToken) (rest : TypeText) :
    mergeTexts (token :: rest) = prependToken token (mergeTexts rest) := by
  have hfirst : pushToken [] token = prependToken token [] := by
    cases token <;> rfl
  rw [mergeTexts, List.foldl_cons, hfirst, foldl_pushToken_prependToken, mergeTexts]

/-- **Merging from the first token on comes to the same as merging from the last one on.** -/
theorem mergeTexts_eq_foldr (tokens : TypeText) :
    mergeTexts tokens = tokens.foldr prependToken [] := by
  induction tokens with
  | nil => rfl
  | cons token rest ih => rw [mergeTexts_cons, ih, List.foldr_cons]

/-- What merging comes to with one more token in front: an empty text is left out, a text in front
of a text is put together with it, and else the token stands in front of what has been merged. -/
theorem mergeTexts_cons_cases (token : TypeToken) (rest : TypeText) :
    (token = .text "" ∧ mergeTexts (token :: rest) = mergeTexts rest)
      ∨ (∃ s t more, s ≠ "" ∧ token = .text s ∧ mergeTexts rest = .text t :: more
          ∧ mergeTexts (token :: rest) = .text (s ++ t) :: more)
      ∨ (token ≠ .text "" ∧ (∀ next ∈ (mergeTexts rest).head?, ¬ (token.isText ∧ next.isText))
          ∧ mergeTexts (token :: rest) = token :: mergeTexts rest) := by
  rw [mergeTexts_cons]
  cases token with
  | link target =>
    refine Or.inr (Or.inr ⟨fun h => (by cases h), ?_, rfl⟩)
    rintro next - ⟨hlink, -⟩
    cases hlink
  | text s =>
    by_cases hs : s = ""
    · subst hs
      exact Or.inl ⟨rfl, rfl⟩
    · have hne : TypeToken.text s ≠ .text "" := fun h => hs (TypeToken.text.inj h)
      rw [prependToken, if_neg fun hempty => hs (String.isEmpty_iff.mp hempty)]
      -- what comes next in the merged tokens says whether the text goes on
      cases mergeTexts rest with
      | nil => exact Or.inr (Or.inr ⟨hne, fun next hnext => (by cases hnext), rfl⟩)
      | cons first more =>
        cases first with
        | text t => exact Or.inr (Or.inl ⟨s, t, more, hs, rfl, rfl, rfl⟩)
        | link target =>
          refine Or.inr (Or.inr ⟨hne, ?_, rfl⟩)
          rintro next hnext ⟨-, hlink⟩
          cases hnext
          cases hlink

/-! ## Merging -/

@[simp] theorem plain_nil : plain [] = "" := rfl

/-- A reader sees the tokens one after the other. -/
theorem plain_cons (token : TypeToken) (rest : TypeText) :
    plain (token :: rest) = token.shown ++ plain rest := by
  rw [plain, List.map_cons, String.join_cons, plain]

variable (tokens : TypeText)

/-- **Merging puts every text in one piece.** -/
theorem merged_mergeTexts : Merged (mergeTexts tokens) := by
  induction tokens with
  | nil => exact merged_nil
  | cons token rest ih =>
    rcases mergeTexts_cons_cases token rest with ⟨-, heq⟩ | ⟨s, t, more, hs, -, hrest, heq⟩
      | ⟨hne, hnext, heq⟩
    · rwa [heq]
    · -- the longer text has the neighbour of the one it is put together with
      rw [hrest] at ih
      obtain ⟨-, hnext, hmore⟩ := merged_cons_iff.mp ih
      rw [heq]
      refine merged_cons_iff.mpr ⟨?_, hnext, hmore⟩
      intro hempty
      exact hs (String.append_eq_empty_iff.mp (TypeToken.text.inj hempty)).1
    · rw [heq]
      exact merged_cons_iff.mpr ⟨hne, hnext, ih⟩

/-- **Merging keeps the links.** -/
theorem links_mergeTexts : links (mergeTexts tokens) = links tokens := by
  induction tokens with
  | nil => rfl
  | cons token rest ih =>
    -- up to merging the rest, the token stands in front in either case
    have hcons : links (token :: mergeTexts rest) = links (token :: rest) := by
      cases token with
      | text s => exact ih
      | link target => rw [links, ih, links]
    rcases mergeTexts_cons_cases token rest with ⟨rfl, heq⟩ | ⟨s, t, more, -, rfl, hrest, heq⟩
      | ⟨-, -, heq⟩
    · rw [heq, ← hcons, links]
    · rw [heq, ← hcons, hrest, links, links, links]
    · rw [heq, hcons]

/-- **Merging keeps the texts before, between and behind the links.** -/
theorem gaps_mergeTexts : gaps (mergeTexts tokens) = gaps tokens := by
  induction tokens with
  | nil => rfl
  | cons token rest ih =>
    have hcons : gaps (token :: mergeTexts rest) = gaps (token :: rest) := by
      cases token with
      | text s => rw [gaps, ih, gaps]
      | link target => rw [gaps, ih, gaps]
    rcases mergeTexts_cons_cases token rest with ⟨rfl, heq⟩ | ⟨s, t, more, -, rfl, hrest, heq⟩
      | ⟨-, -, heq⟩
    · rw [heq, ← hcons, gaps]
      -- there is always a text before the first link, though it may be empty
      cases gaps (mergeTexts rest) with
      | nil => rfl
      | cons gap more => rw [List.modifyHead_cons, String.empty_append]
    · rw [heq, ← hcons, hrest, gaps, gaps, gaps, List.modifyHead_modifyHead]
      congr 1
      funext gap
      exact String.append_assoc
    · rw [heq, hcons]

/-- **What a reader sees is the same after merging.** -/
theorem plain_mergeTexts : plain (mergeTexts tokens) = plain tokens := by
  induction tokens with
  | nil => rfl
  | cons token rest ih =>
    rw [plain_cons, ← ih]
    rcases mergeTexts_cons_cases token rest with ⟨rfl, heq⟩ | ⟨s, t, more, -, rfl, hrest, heq⟩
      | ⟨-, -, heq⟩
    · rw [heq]
      exact String.empty_append.symm
    · rw [heq, hrest, plain_cons, plain_cons, ← String.append_assoc]
      rfl
    · rw [heq, plain_cons]

/-! ## One normal form -/

/-- A text as a token, if it is not empty. -/
def piece (s : String) : TypeText := if s = "" then [] else [.text s]

/-- Links with texts before, between and behind them. -/
def ofParts : List TypeLink → List String → TypeText
  | [], gap :: _ => piece gap
  | target :: targets, gap :: more => piece gap ++ .link target :: ofParts targets more
  | _, [] => []

/-- **Merged tokens are given by their links and the texts between them.** -/
theorem Merged.eq_ofParts {tokens : TypeText} (h : Merged tokens) :
    tokens = ofParts (links tokens) (gaps tokens) := by
  induction tokens with
  | nil => rfl
  | cons token rest ih =>
    obtain ⟨hne, hnext, hrest⟩ := merged_cons_iff.mp h
    cases token with
    | link target =>
      rw [links, gaps, ofParts, ← ih hrest]
      rfl
    | text s =>
      have hpiece : piece s = [.text s] := by
        rw [piece, if_neg]
        intro hs
        exact hne (congrArg TypeToken.text hs)
      -- behind a text there is nothing, or a link
      cases rest with
      | nil =>
        rw [links, gaps, gaps, List.modifyHead_cons, String.append_empty, links, ofParts, hpiece]
      | cons next more =>
        cases next with
        | text t => exact absurd ⟨rfl, rfl⟩ (hnext (.text t) (Option.mem_some_self _))
        | link target =>
          have hmore := ih hrest
          rw [links, gaps, ofParts] at hmore
          rw [links, links, gaps, gaps, List.modifyHead_cons, String.append_empty, ofParts, hpiece,
            List.singleton_append]
          exact congrArg (TypeToken.text s :: ·) hmore

/-- Two merged lists with the same links and texts are the same. -/
theorem eq_of_merged {a b : TypeText} (ha : Merged a) (hb : Merged b) (hlinks : links a = links b)
    (hgaps : gaps a = gaps b) : a = b := by
  rw [ha.eq_ofParts, hb.eq_ofParts, hlinks, hgaps]

end TypeText

/-- What is documented of a type are its merged tokens. -/
theorem value_renderType (index : Index) (t : TypeExpr) :
    (renderType index t).value = mergeTexts (typeTokens index t).value := rfl

/-- **What is documented of a type is the normal form of its tokens.** No text in it is empty and no
two texts stand next to each other, it has the links of the tokens and the texts before, between and
behind them, so that a reader sees the same, and no other list of tokens is like this. -/
theorem renderType_normalForm (index : Index) (t : TypeExpr) :
    (renderType index t).value.Merged
      ∧ (renderType index t).value.links = (typeTokens index t).value.links
      ∧ (renderType index t).value.gaps = (typeTokens index t).value.gaps
      ∧ (renderType index t).value.plain = (typeTokens index t).value.plain
      ∧ ∀ other : TypeText, other.Merged → other.links = (typeTokens index t).value.links →
          other.gaps = (typeTokens index t).value.gaps → other = (renderType index t).value := by
  rw [value_renderType]
  have hmerged := TypeText.merged_mergeTexts (typeTokens index t).value
  have hlinks := TypeText.links_mergeTexts (typeTokens index t).value
  have hgaps := TypeText.gaps_mergeTexts (typeTokens index t).value
  refine ⟨hmerged, hlinks, hgaps, TypeText.plain_mergeTexts _, ?_⟩
  intro other hother hlinks' hgaps'
  exact TypeText.eq_of_merged hother hmerged (hlinks'.trans hlinks.symm) (hgaps'.trans hgaps.symm)

end DocAtlas
