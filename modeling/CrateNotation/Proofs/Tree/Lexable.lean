import CrateNotation.Proofs.Token.Layout
import CrateNotation.Proofs.Tree.Flattening

/-!
# Trees that a text can hold

A tree that is put together by hand may hold texts that no token has, such as a symbol with a blank
in it.  A tree is *lexable* if every leaf of it is some token of the lexical grammar.  What is read
from a text always is.

## Main Definitions

* `Leaf.Lexable`, `Tree.Lexable` — what can be written
* `Tree.ReadFrom` — what is read from a text

## Main Statements

* `wellSpelled_of_mem_ofText` — a parenthesis or `nil` in a text has the lexeme of its kind
* `Tree.ReadFrom.lexable` — what is read from a text can be written
-/

namespace CrateNotation

/-- A leaf is a token of the lexical grammar. Every string is one. -/
def Leaf.Lexable : Leaf → Prop
  | symbol text => IsSymbol text.toList
  | keyword name => IsKeyword name.toList
  | number text => IsNumber text.toList
  | string _ | nil => True

/-- Every leaf of a tree is a token of the lexical grammar, and there are no holes. -/
inductive Tree.Lexable : Tree → Prop where
  | leaf {l : Leaf} (pos : Position) (leaf_ok : l.Lexable) : Lexable (leaf l pos)
  | list {elements : List Tree} (pos : Position) (elements_ok : ∀ t ∈ elements, Lexable t) :
    Lexable (list elements pos)

/-! ## What is read from a text -/

/-- A token of the lexical grammar makes a lexable leaf. -/
theorem Spells.lexable {kind : TokenKind} {lexeme spelling : List Char} {t : Token} {l : Leaf}
    (h : Spells kind lexeme spelling) (hkind : t.kind = kind) (hlexeme : t.lexeme.toList = lexeme)
    (hrole : t.role = .leaf l) : l.Lexable := by
  rw [Token.role, hkind] at hrole
  cases h with
  | openParen => cases hrole
  | closeParen => cases hrole
  | keyword name_ok =>
    obtain rfl := Token.Role.leaf.inj hrole
    show IsKeyword t.lexeme.toList
    rwa [hlexeme]
  | string body_ok =>
    obtain rfl := Token.Role.leaf.inj hrole
    trivial
  | number text_ok =>
    obtain rfl := Token.Role.leaf.inj hrole
    show IsNumber t.lexeme.toList
    rwa [hlexeme]
  | symbol text_ok =>
    obtain rfl := Token.Role.leaf.inj hrole
    show IsSymbol t.lexeme.toList
    rwa [hlexeme]
  | nil =>
    obtain rfl := Token.Role.leaf.inj hrole
    trivial

/-- The leaves that the tokens of a text make are lexable. -/
theorem lexable_of_mem_ofText {text : String} {tokens : List Token}
    (h : Token.ofText text = .ok tokens) {t : Token} (ht : t ∈ tokens) {l : Leaf}
    (hrole : t.role = .leaf l) : l.Lexable := by
  have hend : t.isEnd = false := by
    rw [Bool.eq_false_iff, ne_eq, ← Token.role_eq_ends_iff, hrole]
    nofun
  obtain ⟨p, hfits, rfl⟩ := exists_piece_of_mem_ofText h ht hend
  exact hfits.spells.lexable rfl rfl hrole

/-- What is spelled in the lexical grammar is well spelled. -/
theorem Spells.wellSpelled {t : Token} {spelling : List Char}
    (h : Spells t.kind t.lexeme.toList spelling) : t.WellSpelled := by
  obtain ⟨kind, lexeme, pos⟩ := t
  generalize hchars : lexeme.toList = chars at h
  cases h with
  | openParen | closeParen | nil =>
    rintro _ ⟨⟩
    exact String.toList_inj.1 hchars
  | keyword | string | number | symbol =>
    rintro _ ⟨⟩

/-- The tokens of a text are well spelled. -/
theorem wellSpelled_of_mem_ofText {text : String} {tokens : List Token}
    (h : Token.ofText text = .ok tokens) {t : Token} (ht : t ∈ tokens) : t.WellSpelled := by
  obtain ⟨pieces, rfl, -, hlaid⟩ := exists_laid_of_ofText h
  rcases List.mem_append.1 ht with ht | ht
  · obtain ⟨p, hp, rfl⟩ := List.mem_map.1 ht
    exact (hlaid.fits p hp).spells.wellSpelled
  · obtain rfl := List.mem_singleton.1 ht
    exact Token.lexeme_trace_eq_iff.1 rfl

namespace Tree

/-- A tree without holes is lexable if the leaves are that it has traces of. -/
theorem lexable_of_traces {tree : Tree} (hcomplete : tree.isComplete = true)
    (h : ∀ l pos, Trace.leaf l pos ∈ tree.traces → l.Lexable) : tree.Lexable := by
  induction tree with
  | leaf l pos =>
    refine .leaf pos (h l pos ?_)
    rw [traces]
    exact List.mem_singleton_self _
  | list elements pos ih =>
    rw [isComplete, areComplete_eq_all, List.all_eq_true] at hcomplete
    apply Lexable.list
    intro t ht
    exact ih t ht (hcomplete t ht) fun l p hl => h l p (traces_subset_of_mem ht pos hl)
  | hole => cases hcomplete

/-- What keeps only traces of tokens of a text is lexable. -/
theorem lexable_of_tokens {text : String} {tokens : List Token} {tree : Tree}
    (htokens : Token.ofText text = .ok tokens) (hcomplete : tree.isComplete = true)
    (htraces : tree.traces ⊆ tokens.map Token.trace) : tree.Lexable := by
  apply lexable_of_traces hcomplete
  intro l pos hl
  obtain ⟨t, ht, htrace⟩ := List.mem_map.1 (htraces hl)
  obtain ⟨hrole, -⟩ := Token.trace_eq_leaf_iff.1 htrace
  exact lexable_of_mem_ofText htokens ht hrole

section OfText

variable {options : ReadOptions} {text : String} {tree : Tree} {trees : List Tree}

/-- The first tree of a text keeps only traces of tokens of the text. -/
theorem exists_tokens_of_ofText (h : ofText options text = .ok tree) :
    ∃ tokens, Token.ofText text = .ok tokens ∧ tree.isComplete = true ∧
      tree.traces ⊆ tokens.map Token.trace := by
  rw [ofText] at h
  split at h
  · cases h
  next tokens htokens =>
    obtain ⟨rest, hread⟩ := read_of_readFirst h
    obtain ⟨consumed, rfl, htraces, hcomplete, -⟩ :=
      traces_of_read (Int.natCast_nonneg _) hread
    refine ⟨_, htokens, hcomplete, ?_⟩
    rw [← htraces]
    exact List.map_subset _ (List.subset_append_left consumed rest)

/-- So does every tree of a text. -/
theorem exists_tokens_of_allOfText (h : allOfText options text = .ok trees)
    (mem : tree ∈ trees) :
    ∃ tokens, Token.ofText text = .ok tokens ∧ tree.isComplete = true ∧
      tree.traces ⊆ tokens.map Token.trace := by
  rw [allOfText] at h
  split at h
  · cases h
  next tokens htokens =>
    obtain ⟨consumed, hconsumed, htraces, hfits⟩ :=
      traces_of_readAll (Int.natCast_nonneg _) (Prod.ext h rfl)
    refine ⟨tokens, htokens, (hfits tree mem).1, fun r hr => ?_⟩
    have hr : r ∈ consumed.map Token.trace := by
      rw [htraces]
      exact List.mem_flatMap.2 ⟨tree, mem, hr⟩
    rw [hconsumed, List.map_append]
    exact List.mem_append_left _ hr

/-- `t.ReadFrom text` says that the tree `t` is read from the text, or stands in a tree that is. -/
inductive ReadFrom (text : String) : Tree → Prop where
  | first {options : ReadOptions} {t : Tree} (read : ofText options text = .ok t) :
    ReadFrom text t
  | all {options : ReadOptions} {trees : List Tree} {t : Tree}
    (read : allOfText options text = .ok trees) (mem : t ∈ trees) : ReadFrom text t
  | element {elements : List Tree} {pos : Position} {t : Tree}
    (list : ReadFrom text (.list elements pos)) (mem : t ∈ elements) : ReadFrom text t

/-- What is read from a text keeps only traces of tokens of the text. -/
theorem ReadFrom.exists_tokens (h : tree.ReadFrom text) :
    ∃ tokens, Token.ofText text = .ok tokens ∧ tree.isComplete = true ∧
      tree.traces ⊆ tokens.map Token.trace := by
  induction h with
  | first read => exact exists_tokens_of_ofText read
  | all read mem => exact exists_tokens_of_allOfText read mem
  | @element elements pos t _ mem ih =>
    obtain ⟨tokens, htokens, hcomplete, htraces⟩ := ih
    rw [isComplete, areComplete_eq_all, List.all_eq_true] at hcomplete
    exact ⟨tokens, htokens, hcomplete t mem,
      List.Subset.trans (traces_subset_of_mem mem pos) htraces⟩

/-- What is read from a text can be written. -/
theorem ReadFrom.lexable (h : tree.ReadFrom text) : tree.Lexable := by
  obtain ⟨tokens, htokens, hcomplete, htraces⟩ := h.exists_tokens
  exact lexable_of_tokens htokens hcomplete htraces

/-- The first tree of a text is lexable. -/
theorem lexable_of_ofText (h : ofText options text = .ok tree) : tree.Lexable :=
  (ReadFrom.first h).lexable

/-- Every tree of a text is lexable. -/
theorem lexable_of_allOfText (h : allOfText options text = .ok trees) :
    ∀ tree ∈ trees, tree.Lexable :=
  fun _ mem => (ReadFrom.all h mem).lexable

end OfText

end Tree

end CrateNotation
