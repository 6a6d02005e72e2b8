import RailSpec.Proofs.ParseTree.Offset
import RailSpec.Proofs.ParseTree.Reach

/-!
Contents of strings. A string node stands for the pieces of text that its leaves cover, each read as
a piece of source on its own: a piece in quotes, after the mark of a symbol or spelled as one of the
three bare words comes out changed, and every other piece as it is.
-/

namespace RailSpec

namespace Literal

/-- A piece of source that stands for itself: it is not in quotes, has no mark of a symbol in front
and is no bare word. -/
structure IsVerbatim (piece : List Char) : Prop where
  unquoted : ∀ mark inner, mark = '"' ∨ mark = '\x27' → piece ≠ mark :: (inner ++ [mark])
  unmarked : ∀ rest, piece ≠ ':' :: rest
  noTrue : piece ≠ "true".toList
  noFalse : piece ≠ "false".toList
  noNil : piece ≠ "nil".toList

/-- What a piece of source adds to a text that it is part of. -/
inductive ReadAs : List Char → List Char → Prop where
  | verbatim {piece : List Char} (plain : IsVerbatim piece) : ReadAs piece piece
  | quoted {mark : Char} (inner : List Char) (quote : mark = '"' ∨ mark = '\x27') :
    ReadAs (mark :: (inner ++ [mark])) inner
  | symbol (rest : List Char) : ReadAs (':' :: rest) rest
  | trueWord : ReadAs "true".toList "True".toList
  | falseWord : ReadAs "false".toList "False".toList
  | nilWord : ReadAs "nil".toList []

section ReadAs

variable {piece text : List Char} {pieces texts : List (List Char)}

/-- No piece gets longer. -/
theorem ReadAs.length_le (read : ReadAs piece text) : text.length ≤ piece.length := by
  cases read with
  | verbatim => exact Nat.le_refl _
  | quoted =>
    rw [List.length_cons, List.length_append]
    omega
  | symbol => exact Nat.le_succ _
  | trueWord => decide
  | falseWord => decide
  | nilWord => decide

theorem ReadAs.eq_iff (read : ReadAs piece text) : text = piece ↔ IsVerbatim piece := by
  constructor
  · intro same
    cases read with
    | verbatim plain => exact plain
    | quoted =>
      have lengths := congrArg List.length same
      simp at lengths
      omega
    | symbol =>
      have lengths := congrArg List.length same
      simp at lengths
    | trueWord => exact absurd same (by decide)
    | falseWord => exact absurd same (by decide)
    | nilWord => exact absurd same (by decide)
  · intro plain
    cases read with
    | verbatim => rfl
    | quoted _ quote => exact absurd rfl (plain.unquoted _ _ quote)
    | symbol => exact absurd rfl (plain.unmarked _)
    | trueWord => exact absurd rfl plain.noTrue
    | falseWord => exact absurd rfl plain.noFalse
    | nilWord => exact absurd rfl plain.noNil

theorem flatten_length_le (reads : List.Forall₂ ReadAs pieces texts) :
    texts.flatten.length ≤ pieces.flatten.length := by
  induction reads with
  | nil => exact Nat.le_refl _
  | cons read _ ih => simpa using Nat.add_le_add read.length_le ih

/-- A text comes out as it is just if all its pieces do: what one of them loses no other makes up
for. -/
theorem flatten_eq_iff (reads : List.Forall₂ ReadAs pieces texts) :
    texts.flatten = pieces.flatten ↔ ∀ piece ∈ pieces, IsVerbatim piece := by
  induction reads with
  | nil => simp
  | @cons piece text pieces texts read others ih =>
    rw [List.flatten_cons, List.flatten_cons, List.forall_mem_cons, ← ih, ← read.eq_iff]
    constructor
    · intro same
      have lengths := congrArg List.length same
      rw [List.length_append, List.length_append] at lengths
      have short := read.length_le
      have shorter := flatten_length_le others
      exact List.append_inj same (by omega)
    · rintro ⟨rfl, rest⟩
      rw [rest]

end ReadAs

/-- Quotes around a piece of source are told by its two ends. -/
theorem unquoted?_eq_some_iff {piece inner : List Char} : Source.unquoted? piece = some inner ↔
    ∃ mark, (mark = '"' ∨ mark = '\x27') ∧ piece = mark :: (inner ++ [mark]) := by
  cases piece with
  | nil => simp [Source.unquoted?]
  | cons opening rest =>
    rw [Source.unquoted?]
    constructor
    · intro found
      split at found
      · rename_i both
        cases found
        simp only [Bool.and_eq_true, Bool.or_eq_true, decide_eq_true_eq] at both
        exact ⟨opening, both.1, by rw [List.dropLast_append_getLast? opening both.2]⟩
      · cases found
    · rintro ⟨mark, quote, same⟩
      cases same
      rw [if_pos (by simpa using quote), List.dropLast_concat]

theorem partText_literal (piece : List Char) :
    ∃ text, ReadAs piece text ∧ partText (Source.literal piece) = .ok (String.ofList text) := by
  unfold Source.literal
  split
  · rename_i inner quoted
    obtain ⟨mark, quote, rfl⟩ := unquoted?_eq_some_iff.mp quoted
    exact ⟨inner, .quoted inner quote, rfl⟩
  · rename_i unquoted
    split
    · rename_i rest
      exact ⟨rest, .symbol rest, rfl⟩
    · rename_i unmarked
      split
      · rename_i same
        exact ⟨_, same ▸ .trueWord, rfl⟩
      · rename_i noTrue
        split
        · rename_i same
          exact ⟨_, same ▸ .falseWord, rfl⟩
        · rename_i noFalse
          split
          · rename_i same
            exact ⟨_, same ▸ .nilWord, rfl⟩
          · rename_i noNil
            refine ⟨piece, .verbatim ⟨?_, unmarked, noTrue, noFalse, noNil⟩, rfl⟩
            intro mark inner quote same
            rw [unquoted?_eq_some_iff.mpr ⟨mark, quote, same⟩] at unquoted
            cases unquoted

theorem partsText_literals (pieces : List (List Char)) :
    ∃ texts, List.Forall₂ ReadAs pieces texts ∧
      partsText (pieces.map Source.literal) = .ok (String.ofList texts.flatten) := by
  induction pieces with
  | nil => exact ⟨[], .nil, rfl⟩
  | cons piece pieces ih =>
    obtain ⟨text, read, here⟩ := partText_literal piece
    obtain ⟨texts, reads, there⟩ := ih
    refine ⟨text :: texts, .cons read reads, ?_⟩
    rw [List.map_cons, partsText, here, there, List.flatten_cons, String.ofList_append]
    rfl

end Literal

namespace ParseTree

open Literal (IsVerbatim ReadAs)

/-- The kinds of nodes that are texts made of parts. -/
def textKinds : List String :=
  ["string", "bare_string", "delimited_symbol"]

/-- The number of bytes of a piece of text. -/
def byteCount (piece : List Char) : Nat :=
  (piece.flatMap String.utf8EncodeChar).length

/-- A piece of content: a named node of its own kind that stands in none of the fields whose names
are kept. -/
structure IsContent (label : Label) : Prop where
  kind : label.kind = "string_content"
  named : label.named = true
  unfielded : ∀ name ∈ label.field, name ∉ fieldNames

/-- Children whose contents are leaves that cover pieces of a text, one directly behind the other
from a byte offset on. Unnamed nodes, such as delimiters, may stand anywhere. -/
inductive Covers : Nat → List ParseTree → List (List Char) → Prop where
  | done (offset : Nat) : Covers offset [] []
  | mark {offset : Nat} {tree : ParseTree} {rest : List ParseTree} {pieces : List (List Char)}
    (unnamed : tree.label.named = false) (others : Covers offset rest pieces) :
    Covers offset (tree :: rest) pieces
  | content {offset : Nat} {label : Label} {piece : List Char} {rest : List ParseTree}
    {pieces : List (List Char)} (content : IsContent label) (begins : label.start = offset)
    (ends : label.stop = offset + byteCount piece) (others : Covers label.stop rest pieces) :
    Covers offset (.node label [] :: rest) (piece :: pieces)

section Contents

variable {text : String} {before after piece : List Char} {label : Label}
  {children : List ParseTree} {pieces : List (List Char)} {located : Located}

/-- A node covers what lies between the byte offsets of its ends. -/
theorem text_ofString (whole : text.toList = before ++ piece ++ after)
    (starts : label.start = byteCount before) (stops : label.stop = byteCount (before ++ piece)) :
    (Located.ofString text).text label = piece := by
  have first := wholeBefore_front before (piece ++ after)
  have last := wholeBefore_front (before ++ piece) after
  rw [Located.text, Located.ofString, OffsetMap.slice_toCharacter, starts, stops, whole, byteCount,
    byteCount, last, List.append_assoc, first, ← List.append_assoc, List.take_left, List.drop_left]

theorem content_fields (located : Located) (content : IsContent label) :
    fieldsOf located label [] =
      [("type", .text label.kind), ("location", locationField located label)] := by
  rw [fieldsOf, ownValue, content.kind]
  rfl

theorem spanOf_content (ordered : located.offsets.toCharacter label.start ≤
    located.offsets.toCharacter label.stop) :
    Source.spanOf [("type", .text label.kind), ("location", locationField located label)] =
      some (located.offsets.toCharacter label.start, located.offsets.toCharacter label.stop) := by
  have inOrder : (0 ≤ (located.offsets.toCharacter label.start : Int) &&
      (located.offsets.toCharacter label.start : Int) ≤ located.offsets.toCharacter label.stop) =
        true := by
    simpa using ordered
  exact if_pos inOrder

/-- A piece of content stands for the text that it covers, read as a piece of source. -/
theorem resolve_content (content : IsContent label)
    (ordered : located.offsets.toCharacter label.start ≤ located.offsets.toCharacter label.stop) :
    Literal.resolve located.source (toValue located (.node label [])) =
      .ok (Source.literal (located.text label)) := by
  have recovered : located.source.recover
      [("type", .text label.kind), ("location", locationField located label)] =
        some (Source.literal (located.text label)) := by
    rw [Source.recover, spanOf_content ordered]
    rfl
  rw [toValue, toValues, content_fields located content, Literal.resolve_deferred,
    Literal.resolve_mapping, recovered]
  rfl

theorem toValues_cons (tree : ParseTree) (rest : List ParseTree) :
    toValues located (tree :: rest) =
      (tree.label, toValue located tree) :: toValues located rest := by
  rw [toValues_eq, toValues_eq, List.map_cons]

theorem place_mark (unnamed : label.named = false) (value : Value) (rest : List (Label × Value))
    (seen : List String) : ∃ later, place seen ((label, value) :: rest) = place later rest := by
  rw [place]
  split
  · rename_i name _
    exact ⟨name :: seen, if_neg (by simpa using unnamed)⟩
  · exact ⟨seen, if_neg (by simp [unnamed])⟩

theorem place_content (content : IsContent label) (value : Value) (rest : List (Label × Value))
    (seen : List String) : place seen ((label, value) :: rest) =
      ⟨(place seen rest).claimed, value :: (place seen rest).others⟩ := by
  have free : (label.field.filter fun name => fieldNames.contains name && !seen.contains name) =
      none := by
    refine Option.filter_eq_none_iff.mpr fun name held kept => ?_
    simp only [Bool.and_eq_true, List.contains_eq_mem, decide_eq_true_eq] at kept
    exact content.unfielded name held kept.1
  rw [place, free]
  exact if_pos (by simp [content.named, content.kind])

/-- All contents are parts of their node, and each is read as a piece of source on its own. -/
theorem resolveEach_contents {offset : Nat} (covers : Covers offset children pieces)
    (starts : offset = byteCount before) (whole : text.toList = before ++ pieces.flatten ++ after)
    (seen : List String) :
    (place seen (toValues (Located.ofString text) children)).claimed = [] ∧
    Literal.resolveEach (Source.ofString text)
        (place seen (toValues (Located.ofString text) children)).others =
      .ok (pieces.map Source.literal) := by
  induction covers generalizing before seen with
  | done => exact ⟨by rw [toValues]; rfl, by rw [toValues]; rfl⟩
  | @mark offset tree rest pieces unnamed _ ih =>
    obtain ⟨later, same⟩ := place_mark unnamed (toValue (Located.ofString text) tree)
      (toValues (Located.ofString text) rest) seen
    rw [toValues_cons, same]
    exact ih starts whole later
  | @content offset label piece rest pieces content begins ends _ ih =>
    have whole' : text.toList = (before ++ piece) ++ pieces.flatten ++ after := by
      rw [whole, List.flatten_cons, List.append_assoc before piece]
    have stops : label.stop = byteCount (before ++ piece) := by
      rw [ends, starts, byteCount, byteCount, byteCount, List.flatMap_append, List.length_append]
    have ordered : label.start ≤ label.stop := by omega
    have covered : (Located.ofString text).text label = piece :=
      text_ofString (by rw [whole', List.append_assoc _ pieces.flatten])
        (begins.trans starts) stops
    have here : Literal.resolve (Source.ofString text)
        (toValue (Located.ofString text) (.node label [])) = .ok (Source.literal piece) := by
      rw [← covered]
      exact resolve_content content (OffsetMap.toCharacter_mono text ordered)
    obtain ⟨none, there⟩ := ih stops whole' seen
    rw [toValues_cons]
    dsimp only [ParseTree.label]
    rw [place_content content]
    refine ⟨none, ?_⟩
    dsimp only
    rw [Literal.resolveEach, here, there]
    rfl

/-- A text node stands for its parts, one after the other. -/
theorem resolve_textNode (source : Source) (kind : label.kind ∈ textKinds)
    (unclaimed : (place [] (toValues located children)).claimed = []) :
    Literal.resolve source (toValue located (.node label children)) =
      ((Literal.resolveEach source (place [] (toValues located children)).others).bind
        Literal.partsText).map .text := by
  have valueless (labels : List Label) : ownValue located label labels = none := by
    cases own : ownValue located label labels with
    | none => rfl
    | some value =>
      have apart : ∀ kind ∈ textKinds, kind ∉ valueKinds := by decide
      exact absurd (ownValue_some own).1 (apart _ kind)
  have listed : listName label.kind = "parts" := by
    have each : ∀ kind ∈ textKinds, listName kind = "parts" := by decide
    exact each _ kind
  -- the list of parts is kept even when it is empty
  have parts : childFields label.kind (place [] (toValues located children)) =
      [("parts", .list (place [] (toValues located children)).others)] := by
    have kept : ¬ ((place [] (toValues located children)).others.isEmpty &&
        !keepsEmpty "parts") = true := by
      rw [show keepsEmpty "parts" = true from rfl]
      simp
    rw [childFields, unclaimed, listed]
    exact if_neg kept
  have fields : fieldsOf located label (toValues located children) =
      [("type", .text label.kind), ("location", locationField located label),
        ("parts", .list (place [] (toValues located children)).others)] := by
    rw [fieldsOf, valueless, parts]
  rw [toValue, fields, Literal.resolve_deferred, Literal.resolve_mapping]
  rfl

/-- What a text node stands for, from the pieces of text that its contents cover. -/
theorem resolve_covers (kind : label.kind ∈ textKinds)
    (covers : Covers (byteCount before) children pieces)
    (whole : text.toList = before ++ pieces.flatten ++ after) :
    Literal.resolve (Source.ofString text) (toValue (Located.ofString text) (.node label children)) =
      (Literal.partsText (pieces.map Source.literal)).map .text := by
  obtain ⟨unclaimed, parts⟩ := resolveEach_contents covers rfl whole []
  rw [resolve_textNode (Source.ofString text) kind unclaimed, parts]
  rfl

end Contents

/-- A string node, whose contents cover the text between its delimiters without a gap, stands for a
text put together from what each piece of the contents is read as. It stands for the text between its
delimiters itself just if no piece is in quotes, has the mark of a symbol in front or is one of the
three bare words. -/
theorem resolve_contents {text : String} {before after : List Char} {pieces : List (List Char)}
    {label : Label} {children : List ParseTree} (kind : label.kind ∈ textKinds)
    (covers : Covers (byteCount before) children pieces)
    (whole : text.toList = before ++ pieces.flatten ++ after) :
    (∃ texts, List.Forall₂ ReadAs pieces texts ∧
      Literal.resolve (Source.ofString text)
          (toValue (Located.ofString text) (.node label children)) =
        .ok (.text (String.ofList texts.flatten))) ∧
    (Literal.resolve (Source.ofString text)
          (toValue (Located.ofString text) (.node label children)) =
        .ok (.text (String.ofList pieces.flatten)) ↔
      ∀ piece ∈ pieces, IsVerbatim piece) := by
  obtain ⟨texts, reads, parts⟩ := Literal.partsText_literals pieces
  have resolved := resolve_covers kind covers whole
  rw [parts] at resolved
  refine ⟨⟨texts, reads, resolved⟩, ?_⟩
  rw [resolved, ← Literal.flatten_eq_iff reads]
  constructor
  · intro same
    exact String.ofList_injective (Value.text.inj (Except.ok.inj same))
  · intro same
    rw [same]
    rfl

/-! Strings with one piece of content between two quotes. -/

def quotedText (piece : List Char) : String :=
  String.ofList (['"'] ++ piece ++ ['"'])

def quotedLabel (piece : List Char) : Label :=
  { kind := "string", start := 0, stop := byteCount piece + 2 }

def quotedChildren (piece : List Char) : List ParseTree := [
  .node { kind := "\"", start := 0, stop := 1, named := false } [],
  .node { kind := "string_content", start := 1, stop := 1 + byteCount piece } [],
  .node { kind := "\"", start := 1 + byteCount piece, stop := byteCount piece + 2, named := false } []]

theorem quotedLabel_kind (piece : List Char) : (quotedLabel piece).kind ∈ textKinds :=
  List.mem_cons_self

theorem quoted_covers (piece : List Char) :
    Covers (byteCount ['"']) (quotedChildren piece) [piece] := by
  have content : IsContent ⟨"string_content", 1, 1 + byteCount piece, none, true, false, 0, 0⟩ :=
    ⟨rfl, rfl, fun _ held => nomatch held⟩
  exact .mark rfl (.content content rfl rfl (.mark rfl (.done _)))

theorem quoted_whole (piece : List Char) :
    (quotedText piece).toList = ['"'] ++ [piece].flatten ++ ['"'] := by
  rw [quotedText, String.toList_ofList, List.flatten_singleton]

/-- The word for truth in quotes does not stand for itself but for the word with a capital letter. -/
theorem resolve_trueWord :
    Covers (byteCount ['"']) (quotedChildren "true".toList) ["true".toList] ∧
    Literal.resolve (Source.ofString (quotedText "true".toList))
        (toValue (Located.ofString (quotedText "true".toList))
          (.node (quotedLabel "true".toList) (quotedChildren "true".toList))) =
      .ok (.text "True") ∧ "True" ≠ "true" := by
  have covers := quoted_covers "true".toList
  refine ⟨covers, ?_, by decide⟩
  rw [resolve_covers (quotedLabel_kind _) covers (quoted_whole _)]
  rfl

/-- A word with letters of two bytes stands for itself. -/
theorem resolve_contents_summer :
    Covers (byteCount ['"']) (quotedChildren ['é', 't', 'é']) [['é', 't', 'é']] ∧
    (∀ piece ∈ [['é', 't', 'é']], IsVerbatim piece) ∧
    Literal.resolve (Source.ofString (quotedText ['é', 't', 'é']))
        (toValue (Located.ofString (quotedText ['é', 't', 'é']))
          (.node (quotedLabel ['é', 't', 'é']) (quotedChildren ['é', 't', 'é']))) =
      .ok (.text "été") := by
  have covers := quoted_covers ['é', 't', 'é']
  have verbatim : ∀ piece ∈ [['é', 't', 'é']], IsVerbatim piece := by
    refine List.forall_mem_singleton.mpr ⟨?_, nofun, by decide, by decide, by decide⟩
    intro mark inner quote same
    obtain ⟨rfl, -⟩ := List.cons.inj same
    exact absurd quote (by decide)
  exact ⟨covers, verbatim, (resolve_contents (quotedLabel_kind _) covers
    (quoted_whole _)).2.mpr verbatim⟩

end ParseTree

end RailSpec
