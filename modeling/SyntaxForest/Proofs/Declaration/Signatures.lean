import SyntaxForest.Declaration.Converter
import SyntaxForest.Proofs.Native.Spans
import SyntaxForest.Proofs.Text.Words

/-!
# Signatures

The signature of a method is what its source text says before the body, in the same words with
single spaces between them.

* **`Converter.beforeBody_eq`** — the text before the body, as a slice of the source.
* **`Converter.signature_of_words`** — what signature there is, for all texts.
-/

namespace SyntaxForest

namespace Converter

variable {c : Converter} {t : SyntaxTree} {n : SyntaxNode} {s : Span}

/-- The span of the first child that is a body, if there is such a child and it has a span. -/
def bodySpan? (c : Converter) (n : SyntaxNode) : Option Span :=
  (n.children.find? fun child => c.classifier.isBody child.kind).bind SyntaxNode.span

/-- Where the text before the body ends, in a node with this span. -/
def headStop (c : Converter) (n : SyntaxNode) (s : Span) : Nat :=
  ((c.bodySpan? n).map Span.start).getD s.stop

theorem beforeBody_eq (hspan : n.span = some s) (hfits : s.stop ≤ t.source.length)
    (hbody : ∀ b, c.bodySpan? n = some b → s.start ≤ b.start ∧ b.start ≤ s.stop) :
    c.beforeBody t n = Text.slice t.source s.start (c.headStop n s) := by
  rw [beforeBody, headStop]
  unfold bodySpan? at hbody ⊢
  rw [hspan, t.textOf_some hfits]
  -- without a body, or with a body whose place is not known, it is the text of the whole node
  cases hfind : n.children.find? fun child => c.classifier.isBody child.kind with
  | none => rfl
  | some body =>
    rw [hfind, Option.bind_some] at hbody
    cases hb : body.span with
    | none => simp [hb]
    | some b =>
      obtain ⟨hstart, hstop⟩ := hbody b hb
      simpa [hb] using Text.slice_slice hstart hstop hfits

theorem signature_eq_none_iff : c.signature t n = none ↔ Text.words (c.beforeBody t n) = [] := by
  rw [← Text.unwrap_eq_empty_iff, signature, nonEmpty]
  split <;> simp [*]

theorem eq_of_signature_eq_some {sig : String} (h : c.signature t n = some sig) :
    sig = Text.unwrap (c.beforeBody t n) := by
  rw [signature, nonEmpty] at h
  split at h
  · cases h
  · exact (Option.some.inj h).symm

/-- **A signature is the text before the body, normalized.** Take any node of any tree whose span
lies in the source, and let its first child that is a body begin in that span, if there is one with
a span at all. The source from where the node begins to where the body does, or to the end of the
node, spells words in just one way. If there are none, then the method has no signature. Otherwise
the signature spells the same words and no others; it is these words with single spaces between them
and no blank at either end, and normalizing it again changes nothing. -/
theorem signature_of_words (c : Converter) (t : SyntaxTree) (n : SyntaxNode) {s : Span}
    (hspan : n.span = some s) (hfits : s.stop ≤ t.source.length)
    (hbody : ∀ b, c.bodySpan? n = some b → s.start ≤ b.start ∧ b.start ≤ s.stop) :
    ∃ ws, (∀ ws', Text.Spells (Text.slice t.source s.start (c.headStop n s)).toList ws' ↔ ws' = ws)
      ∧ ((c.method t n).signature = none ↔ ws = [])
      ∧ ∀ sig, (c.method t n).signature = some sig →
          (∀ ws', Text.Spells sig.toList ws' ↔ ws' = ws)
            ∧ sig = " ".intercalate ws
            ∧ (∀ x ∈ sig.toList.head?, Text.isBlank x = false)
            ∧ (∀ x ∈ sig.toList.getLast?, Text.isBlank x = false)
            ∧ Text.unwrap sig = sig := by
  have hspells : ∀ text ws', Text.Spells text.toList ws' ↔ ws' = Text.words text :=
    fun text ws' => Text.spells_iff.trans eq_comm
  rw [← beforeBody_eq hspan hfits hbody]
  refine ⟨_, hspells _, signature_eq_none_iff, fun sig hsig => ?_⟩
  have hwords := (Text.spells_words (c.beforeBody t n)).isWord
  cases eq_of_signature_eq_some hsig
  refine ⟨?_, rfl, Text.head_intercalate hwords, Text.getLast_intercalate hwords,
    Text.unwrap_unwrap _⟩
  rw [← Text.words_unwrap]
  exact hspells _

/-- A method with a body, all of it in the source. -/
def looseMethod : SyntaxNode :=
  .node 1 { kind := "method_declaration", span := some { start := 2, stop := 19 } }
    [.node 2 { kind := "formal_parameters" } [],
      .node 3 { kind := "block", span := some { start := 17, stop := 19 } } []]

/-- A method that is nothing but a body. -/
def bodyOnly : SyntaxNode :=
  .node 4 { kind := "method_declaration", span := some { start := 17, stop := 19 } }
    [.node 5 { kind := "block", span := some { start := 17, stop := 19 } } []]

/-- A source with blanks of several kinds before the name and among the parameters. -/
def looseTree : SyntaxTree where
  nodes := {}
  root := .node 0 { kind := "class_body" } [looseMethod, bodyOnly]
  source := "  int f(\u3000\tint x) {}"
  language := "java"

def javaConverter : Converter := ⟨"java", .byRules .java⟩

/-- The signature of the one method is its words with single spaces, and the other method has
none. -/
theorem loose_signature_normalized :
    (∃ ws, Text.Spells (Text.slice looseTree.source 2 17).toList ws
        ∧ (javaConverter.method looseTree looseMethod).signature = some "int f( int x)"
        ∧ (∀ ws', Text.Spells "int f( int x)".toList ws' ↔ ws' = ws)
        ∧ Text.unwrap "int f( int x)" = "int f( int x)")
      ∧ Text.Spells (Text.slice looseTree.source 17 17).toList []
      ∧ (javaConverter.method looseTree bodyOnly).signature = none := by
  have hsome : (javaConverter.method looseTree looseMethod).signature = some "int f( int x)" := by
    decide +kernel
  obtain ⟨ws, hws, -, hsig⟩ :=
    signature_of_words javaConverter looseTree looseMethod rfl (by decide) (by
      rintro b ⟨⟩
      decide)
  obtain ⟨hsame, -, -, -, hagain⟩ := hsig _ hsome
  obtain ⟨noWords, hnone, hiff, -⟩ :=
    signature_of_words javaConverter looseTree bodyOnly rfl (by decide) (by
      rintro b ⟨⟩
      decide)
  have hempty : Text.Spells (Text.slice looseTree.source 17 17).toList [] :=
    Text.spells_iff.mpr (by decide +kernel)
  exact ⟨⟨ws, (hws ws).mpr rfl, hsome, hsame, hagain⟩, hempty, hiff.mpr ((hnone []).mp hempty).symm⟩

end Converter

end SyntaxForest
