import Mathlib
import MacroFamilies.Proofs.Text.Margins
import MacroFamilies.Proofs.Traversal
import MacroFamilies.Proofs.Yaml.Reading
/-!
# Texts without indicators

Only indicators open collections and give names. So each token of a text without any is a scalar or
the end of the text, and what such a text holds is no collection. A blank text is one of these.
-/

namespace MacroFamilies.Yaml

def isOrdinary (c : Char) : Bool := !Lexer.isIndicator c && c != '.'

def AllOrdinary (cells : List Cell) : Prop := ∀ cell ∈ cells, isOrdinary cell.char = true

theorem AllOrdinary.subset {cells rest : List Cell} (h : AllOrdinary cells) (hrest : rest ⊆ cells) :
    AllOrdinary rest :=
  fun cell hcell => h cell (hrest hcell)

theorem AllOrdinary.head {cells : List Cell} (h : AllOrdinary cells) :
    isOrdinary (head cells) = true := by
  cases cells with
  | nil => decide
  | cons cell rest => exact h cell List.mem_cons_self

theorem ne_of_isOrdinary {c d : Char} (h : isOrdinary c = true) (hd : isOrdinary d = false) :
    c ≠ d := by
  rintro rfl
  rw [h] at hd
  cases hd

/-! ## Cells -/

theorem mem_of_forbidden? {before block text kept : List Char} {start index place : Nat}
    (h : forbidden? before block start index text = some (place, kept)) :
    ∀ c ∈ kept, c ∈ before ∨ c ∈ block ∨ c ∈ text := by
  induction text generalizing before block start index with
  | nil => cases h
  | cons next rest ih =>
    intro c hc
    rw [forbidden?] at h
    by_cases hfits : index + next.utf8Size ≤ start + blockSize
    · simp only [hfits, if_true] at h
      split_ifs at h with hallowed
      · have hmem := ih h c hc
        simp only [List.mem_cons] at hmem ⊢
        tauto
      · simp only [Option.some.injEq, Prod.mk.injEq] at h
        rw [← h.2, List.mem_reverse] at hc
        exact .inl hc
    · simp only [hfits, if_false] at h
      split_ifs at h with hallowed
      · have hmem := ih h c hc
        simp only [List.mem_cons, List.mem_append, List.not_mem_nil, or_false] at hmem ⊢
        tauto
      · simp only [Option.some.injEq, Prod.mk.injEq] at h
        rw [← h.2, List.mem_reverse, List.mem_append] at hc
        tauto

theorem allOrdinary_layOut {last : Char} (hlast : isOrdinary last = true) (m : Mark)
    {text : List Char} (h : ∀ c ∈ text, isOrdinary c = true) :
    AllOrdinary (layOut last m text) := by
  have hbreak : isOrdinary '\n' = true := by decide
  induction m, text using layOut.induct with
  | case1 m => simpa [AllOrdinary, layOut] using hlast
  | case2 m rest ih =>
    rw [layOut]
    exact List.forall_mem_cons.2
      ⟨hbreak, ih (List.forall_mem_cons.1 (List.forall_mem_cons.1 h).2).2⟩
  | case3 m rest ih =>
    rw [layOut]
    exact List.forall_mem_cons.2 ⟨hbreak, ih (List.forall_mem_cons.1 h).2⟩
  | case4 m rest hnext ih =>
    rw [layOut]
    · exact List.forall_mem_cons.2 ⟨hbreak, ih (List.forall_mem_cons.1 h).2⟩
    · exact hnext
  | case5 m rest ih =>
    rw [layOut]
    exact List.forall_mem_cons.2 ⟨hbreak, ih (List.forall_mem_cons.1 h).2⟩
  | case6 m c rest hpair hfeed hreturn hnext ih =>
    obtain ⟨hc, hrest⟩ := List.forall_mem_cons.1 h
    rw [layOut]
    · exact List.forall_mem_cons.2 ⟨hc, ih hrest⟩
    all_goals assumption

/-! ## Reading scalars -/

theorem plainRun_subset {flow : Bool} {start : Mark} {cells after : List Cell} {text : List Char}
    (h : plainRun flow start cells = .ok (text, after)) : after ⊆ cells := by
  induction cells generalizing text with
  | nil =>
    cases h
    exact List.Subset.refl _
  | cons cell rest ih =>
    rw [plainRun] at h
    simp only [bind, Except.bind] at h
    split at h
    · cases h
    · split_ifs at h
      · cases h
        exact List.Subset.refl _
      · cases h
        exact List.Subset.refl _
      · split at h
        · cases h
        · rename_i run hrun
          cases h
          exact List.subset_cons_of_subset _ (ih hrun)

theorem plainWords_subset {flow : Bool} {indent : Int} {start : Mark} {fuel : Nat}
    {text gap : List Char} {stop : Mark} {broken : Bool} {cells : List Cell} {scalar : PlainScalar}
    (h : plainWords flow indent start fuel text gap stop broken cells = .ok scalar) :
    scalar.rest ⊆ cells := by
  induction fuel generalizing text gap stop broken cells with
  | zero =>
    cases h
    exact List.Subset.refl _
  | succ fuel ih =>
    simp only [plainWords, bind, Except.bind, pure, Except.pure] at h
    split at h
    · cases h
    split_ifs at h
    · cases h
      exact List.Subset.refl _
    split at h
    · cases h
    rename_i run hrun
    have hnext : (run.2.dropWhile fun cell => isGap cell.char) ⊆ cells :=
      List.Subset.trans (List.dropWhile_sublist _).subset (plainRun_subset hrun)
    split at h
    · cases h
      exact List.Subset.refl _
    split at h
    · cases h
    split at h
    · cases h
      exact hnext
    split at h
    · cases h
    split at h
    · cases h
      exact hnext
    · exact List.Subset.trans (ih h) hnext

/-! ## Tokens -/

/-- A token that makes up the root of a document on its own. -/
def Token.StandsAlone (token : Token) : Prop :=
  token.kind = .streamEnd ∨ ∃ style text, token.kind = .scalar style text

namespace Lexer

/-- Only ordinary characters are left, no collection is open, and none was opened by the tokens that
are held back. -/
structure IsOrdinary (s : Lexer) : Prop where
  cells : AllOrdinary s.cells
  outer : s.outer = []
  queue : ∀ token ∈ s.queue, token.StandsAlone

variable {s s' : Lexer}

namespace IsOrdinary

theorem push (h : s.IsOrdinary) {kind : TokenKind} {start stop : Mark}
    (halone : Token.StandsAlone ⟨kind, start, stop⟩) : (s.push kind start stop).IsOrdinary where
  cells := h.cells
  outer := h.outer
  queue token htoken := by
    rcases List.mem_append.1 htoken with hmem | hmem
    · exact h.queue token hmem
    · rw [List.mem_singleton.1 hmem]
      exact halone

theorem dropKey (h : s.IsOrdinary) (hdrop : s.dropKey = .ok s') : s'.IsOrdinary := by
  unfold Lexer.dropKey at hdrop
  split at hdrop
  · split_ifs at hdrop
    cases hdrop
    exact ⟨h.cells, h.outer, h.queue⟩
  · cases hdrop
    exact h

theorem dropStaleKeys (h : s.IsOrdinary) (hdrop : s.dropStaleKeys = .ok s') : s'.IsOrdinary := by
  unfold Lexer.dropStaleKeys at hdrop
  split at hdrop
  · cases hdrop
  · cases hdrop
    exact ⟨h.cells, h.outer, h.queue⟩

theorem saveKey (h : s.IsOrdinary) (hsave : s.saveKey = .ok s') : s'.IsOrdinary := by
  unfold Lexer.saveKey at hsave
  split_ifs at hsave
  · cases hsave
    exact h
  · obtain ⟨dropped, hdrop, hsave⟩ := Traversal.bind_eq_ok_iff.1 hsave
    cases hsave
    have hdropped := h.dropKey hdrop
    exact ⟨hdropped.cells, hdropped.outer, hdropped.queue⟩

theorem closeBlocks (h : s.IsOrdinary) (column : Int) : (s.closeBlocks column).IsOrdinary := by
  unfold Lexer.closeBlocks
  split_ifs
  · exact h
  · rw [h.outer, closing]
    exact ⟨h.cells, rfl, by simpa using h.queue⟩

theorem skipToToken (h : s.IsOrdinary) (fuel : Nat) : (skipToToken fuel s).IsOrdinary := by
  induction fuel generalizing s with
  | zero => exact h
  | succ fuel ih =>
    unfold Lexer.skipToToken
    extract_lets cells marked tabs spaced commented
    have hmarked : marked ⊆ s.cells := by
      unfold marked
      split_ifs
      · exact List.drop_subset 1 _
      · exact List.Subset.refl _
    have hspaced : spaced ⊆ s.cells :=
      List.Subset.trans (List.dropWhile_sublist _).subset hmarked
    have hcommented : commented ⊆ s.cells := by
      unfold commented
      split_ifs
      · exact List.Subset.trans (List.dropWhile_sublist _).subset hspaced
      · exact hspaced
    split_ifs
    · exact ih ⟨h.cells.subset (List.Subset.trans (List.drop_subset 1 _) hcommented), h.outer,
        h.queue⟩
    · exact ⟨h.cells.subset hcommented, h.outer, h.queue⟩

theorem fetchEnd (h : s.IsOrdinary) (hfetch : s.fetchEnd = .ok s') : s'.IsOrdinary := by
  unfold Lexer.fetchEnd at hfetch
  obtain ⟨dropped, hdrop, hfetch⟩ := Traversal.bind_eq_ok_iff.1 hfetch
  cases hfetch
  have hlast {mark : Mark} : IsOrdinary { s with cells := [⟨endOfText, mark, 1⟩] } :=
    ⟨by simp [AllOrdinary, isOrdinary, Lexer.isIndicator, endOfText], h.outer, h.queue⟩
  have hdropped := (hlast.closeBlocks (-1)).dropKey hdrop
  exact ⟨hdropped.cells, hdropped.outer, (hdropped.push (.inl rfl)).queue⟩

theorem fetchPlainScalar (h : s.IsOrdinary) (hfetch : s.fetchPlainScalar = .ok s') :
    s'.IsOrdinary := by
  unfold Lexer.fetchPlainScalar at hfetch
  obtain ⟨saved, hsave, hfetch⟩ := Traversal.bind_eq_ok_iff.1 hfetch
  obtain ⟨scalar, hscalar, hfetch⟩ := Traversal.bind_eq_ok_iff.1 hfetch
  cases hfetch
  have hsaved := h.saveKey hsave
  have hrest : scalar.rest ⊆ saved.cells := plainWords_subset hscalar
  have halone : Token.StandsAlone ⟨.scalar .plain scalar.text, saved.mark, scalar.stop⟩ :=
    .inr ⟨_, _, rfl⟩
  exact ⟨hsaved.cells.subset hrest, hsaved.outer, (hsaved.push halone).queue⟩

/-- No character that is left opens, closes or separates anything. -/
theorem fetchToken (h : s.IsOrdinary) (hfetch : s.fetchToken = .ok s') : s'.IsOrdinary := by
  have hhead {c : Char} (hc : isOrdinary c = false) : (head s.cells == c) = false :=
    beq_false_of_ne (ne_of_isOrdinary h.cells.head hc)
  have hline {c : Char} (hc : isOrdinary c = false) : atIndicator c s.cells = false := by
    simp [atIndicator, hhead hc]
  unfold Lexer.fetchToken at hfetch
  simp (disch := decide) only [hhead, hline, Bool.false_and, Bool.and_false, Bool.or_self,
    Bool.false_eq_true, if_false] at hfetch
  split at hfetch
  · exact h.fetchEnd hfetch
  split at hfetch
  · exact h.fetchPlainScalar hfetch
  · cases hfetch

theorem fetch (h : s.IsOrdinary) (hfetch : s.fetch = .ok s') : s'.IsOrdinary := by
  unfold Lexer.fetch at hfetch
  obtain ⟨_, -, hfetch⟩ := Traversal.bind_eq_ok_iff.1 hfetch
  obtain ⟨dropped, hdrop, hfetch⟩ := Traversal.bind_eq_ok_iff.1 hfetch
  obtain ⟨_, -, hfetch⟩ := Traversal.bind_eq_ok_iff.1 hfetch
  exact (((h.skipToToken _).dropStaleKeys hdrop).closeBlocks _).fetchToken hfetch

end IsOrdinary

end Lexer

theorem standsAlone_ofLexer {s : Lexer} (h : s.IsOrdinary) (fuel : Nat) :
    ∀ token ∈ (TokenStream.ofLexer fuel s).tokens, token.StandsAlone := by
  induction fuel generalizing s with
  | zero => simp [TokenStream.ofLexer]
  | succ fuel ih =>
    intro token htoken
    rw [TokenStream.ofLexer] at htoken
    cases hfetch : s.fetch.bind Lexer.dropStaleKeys with
    | error fault => simp [hfetch] at htoken
    | ok next =>
      obtain ⟨fetched, hfetched, hdrop⟩ := Traversal.bind_eq_ok_iff.1 hfetch
      have hnext := (h.fetch hfetched).dropStaleKeys hdrop
      have hrest : next.release.2.IsOrdinary :=
        ⟨hnext.cells, hnext.outer, fun token hmem => hnext.queue token (List.mem_of_mem_drop hmem)⟩
      simp only [hfetch] at htoken
      split at htoken
      · exact hnext.queue token (List.mem_of_mem_take htoken)
      · rcases List.mem_append.1 htoken with hmem | hmem
        · exact hnext.queue token (List.mem_of_mem_take hmem)
        · exact ih hrest token hmem

theorem standsAlone_ofText {text : List Char} (h : ∀ c ∈ text, isOrdinary c = true) :
    ∀ token ∈ (TokenStream.ofText text).tokens, token.StandsAlone := by
  unfold TokenStream.ofText
  cases hforbidden : forbidden? [] [] 0 0 text with
  | none =>
    have hcells := allOrdinary_layOut (show isOrdinary endOfText = true by decide) .start h
    exact standsAlone_ofLexer ⟨hcells, rfl, by simp⟩ _
  | some found =>
    obtain ⟨place, kept⟩ := found
    have hkept : ∀ c ∈ kept, isOrdinary c = true := by
      intro c hc
      have hmem := mem_of_forbidden? hforbidden c hc
      simp only [List.not_mem_nil, false_or] at hmem
      exact h c hmem
    have hcells := allOrdinary_layOut (show isOrdinary unreadable = true by decide) .start hkept
    exact standsAlone_ofLexer ⟨hcells, rfl, by simp⟩ _

/-! ## The document -/

/-- A node that holds no collection and refers to none. -/
def Node.IsBare : Node → Prop
  | .scalar .. | .cut => True
  | _ => False

theorem tokens_addHandle (b : Builder) (handle lead : List Char) :
    ((b.addHandle? handle lead).getD b).tokens = b.tokens := by
  unfold Builder.addHandle?
  split_ifs <;> rfl

theorem tokens_addDefaultHandles (b : Builder) : b.addDefaultHandles.tokens = b.tokens :=
  (tokens_addHandle _ _ _).trans (tokens_addHandle _ _ _)

/-- A document that begins with a token that stands alone is what this token is. -/
theorem isBare_root {b : Builder} (h : ∀ token ∈ b.tokens, token.StandsAlone) (fuel : Nat) :
    (b.root (fuel + 1)).1.IsBare := by
  unfold Builder.root
  cases htokens : b.tokens with
  | nil => simp [Builder.peek, htokens, bind, Except.bind, Builder.cutAt, Node.IsBare]
  | cons first rest =>
    have hpeek : b.peek = .ok first := by simp [Builder.peek, htokens]
    have hpeek' : b.addDefaultHandles.peek = .ok first := by
      simp [Builder.peek, tokens_addDefaultHandles, htokens]
    obtain ⟨kind, start, stop⟩ := first
    rcases h _ (htokens ▸ List.mem_cons_self) with hkind | ⟨style, text, hkind⟩
    · obtain rfl : kind = .streamEnd := hkind
      simp [hpeek, bind, Except.bind, pure, Except.pure, Token.is, Node.blank, Node.IsBare]
    · obtain rfl : kind = .scalar style text := hkind
      have hnode : (Builder.node (fuel + 1) true false b.addDefaultHandles).1.IsBare := by
        simp [Builder.node, hpeek', Builder.properties, bind, Except.bind, pure, Except.pure,
          Builder.resolveTag, Builder.scalarNode, Node.IsBare]
      simpa [hpeek, bind, Except.bind, pure, Except.pure, Token.is, Builder.startsDocument]
        using hnode

theorem isBare_ofText {text : List Char} (h : ∀ c ∈ text, isOrdinary c = true) :
    (Document.ofText text).root.IsBare := by
  unfold Document.ofText Document.ofTokens
  exact isBare_root (standsAlone_ofText h) _

theorem isOrdinary_of_isBlank {c : Char} (h : Text.isBlank c = true) : isOrdinary c = true := by
  have hblank {d : Char} (hd : Text.isBlank d = false) : c ≠ d := by
    rintro rfl
    rw [hd] at h
    cases h
  have hindicators : ∀ d ∈ "-?:,[]\x7b\x7d#&*!|>'\"%@`".toList, Text.isBlank d = false := by
    simp [Text.isBlank]
  have hindicator : Lexer.isIndicator c = false :=
    decide_eq_false fun hmem => hblank (hindicators c hmem) rfl
  simp [isOrdinary, hindicator, hblank (show Text.isBlank '.' = false by decide)]

/-- A text that holds a mapping is not blank. -/
theorem trim_ne_nil_of_root_mapping {text : List Char} {mark : Mark} {entries : List (Node × Node)}
    (h : (Document.ofText text).resolve (Document.ofText text).root = .mapping mark entries) :
    Text.trim text ≠ [] := by
  intro hblank
  have hbare : (Document.ofText text).root.IsBare :=
    isBare_ofText fun c hc => isOrdinary_of_isBlank (Text.trim_eq_nil_iff.1 hblank c hc)
  generalize (Document.ofText text).root = root at h hbare
  cases root with
  | scalar | cut => cases h
  | _ => exact hbare

end MacroFamilies.Yaml
