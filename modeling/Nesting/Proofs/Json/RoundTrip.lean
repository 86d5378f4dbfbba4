import Nesting.Language.Basic
import Nesting.Proofs.Json.Decoding
import Nesting.Tree.Json

/-! # Grammars and tokens as JSON, and back

Every part of a grammar is read back from what it is written as, and so is every token whose
numbers fit into 64 bits.  The written text of a language's grammar gives the same language, under
whatever name it is loaded. -/

namespace Nesting

open Decoder

/-! ### Grammars -/

theorem CommentForm.reads_toJson (c : CommentForm) : Reads decoder c.toJson c := by
  cases c with
  | line opening =>
      exact reads_tagged rfl [] (.required (reads_text opening) (.nil _)) (by decide)
        (by simp [Json.depth]) _
  | multiline opening closing =>
      exact reads_tagged rfl []
        (.required (reads_text opening) (.required (reads_text closing) (.nil _))) (by decide)
        (by simp [Json.depth]) _

theorem BracketForm.reads_toJson (b : BracketForm) : Reads decoder b.toJson b :=
  reads_record (.required (reads_text b.opening) (.required (reads_text b.closing) (.nil _)))
    (by decide) _

theorem TemplateForm.reads_toJson (t : TemplateForm) : Reads decoder t.toJson t := by
  cases t with
  | code opening closing =>
      exact reads_tagged rfl []
        (.required (reads_text opening) (.required (reads_text closing) (.nil _))) (by decide)
        (by simp [Json.depth]) _
  | reference opening symbols operators =>
      exact reads_tagged rfl []
        (.required (reads_text opening) (.required (reads_text symbols)
          (.defaulted (reads_strings operators) (.nil _)))) (by decide)
        (by simp [Json.depth, depth_strings, greatestDepth]) _

theorem StringForm.reads_toJson (s : StringForm) : Reads decoder s.toJson s :=
  reads_record (.required (reads_text s.opening) (.defaulted (reads_optional s.closing)
    (.defaulted (reads_optional s.escape)
      (.defaulted (reads_list TemplateForm.reads_toJson s.templates) (.nil _))))) (by decide) _

theorem Lexicon.reads_toJson (l : Lexicon) : Reads decoder l.toJson l :=
  reads_record (.defaulted (reads_optional l.lineJoin)
    (.defaulted (reads_list CommentForm.reads_toJson l.comments)
      (.required (reads_text l.symbols) (.required (reads_text l.numbers)
        (.defaulted (reads_strings l.operators)
          (.defaulted (reads_list BracketForm.reads_toJson l.brackets)
            (.defaulted (reads_list StringForm.reads_toJson l.strings) (.nil _))))))))
    (by decide) _

theorem Layout.reads_toJson (l : Layout) : Reads decoder l.toJson l :=
  reads_record (.defaulted (reads_boolean l.indentBlocks) (.nil _)) (by decide) _

theorem Grammar.reads_toJson (g : Grammar) : Reads decoder g.toJson g :=
  reads_record (.required g.lexicon.reads_toJson (.defaulted g.layout.reads_toJson (.nil _)))
    (by decide) _

/-! ### Tokens -/

theorem TokenKind.reads_name (k : TokenKind) : Reads decoder (.string k.name) k := by
  refine ⟨.string k.name, ?_⟩
  rw [decoder, named, ofName?_name]

/-- The numbers of a token fit into 64 bits. -/
structure Token.IsBounded (t : Token) : Prop where
  offset : t.pos.offset ≤ Json.Reader.greatestNatural
  line : t.pos.line ≤ Json.Reader.greatestNatural
  col : t.pos.col ≤ Json.Reader.greatestNatural
  lineBreaks : t.lineBreaks ≤ Json.Reader.greatestNatural

theorem Token.reads_toJson {t : Token} (h : t.IsBounded) : Reads decoder t.toJson t :=
  reads_record (.required t.kind.reads_name (.required (reads_text t.value)
    (.required (reads_count h.offset) (.required (reads_count h.line)
      (.required (reads_count h.col) (.required (reads_count h.lineBreaks) (.nil _)))))))
    (by decide) _

/-! ### Languages -/

namespace Language

/-- A language is compiled again from the grammar that it keeps. -/
theorem ofGrammar_grammar {name : String} {g : Grammar} {l : Language}
    (h : ofGrammar name g = .ok l) (name' : String) :
    ofGrammar name' l.grammar = .ok { l with name := name' } := by
  obtain ⟨rules, hrules, h⟩ := bind_eq_ok_iff.mp h
  cases h
  exact bind_eq_ok_iff.mpr ⟨rules, hrules, rfl⟩

theorem ofJson_eq_ok {name text : String} {g : Grammar} {l : Language}
    (htext : run Grammar.decoder text = .ok g) (hg : ofGrammar name g = .ok l) :
    ofJson name text = .ok l := by
  rw [ofJson, htext]
  dsimp only
  rw [hg]

end Language

/-- The JSON text of a grammar or a token, on one line or over several, is decoded to that grammar
or token, and the text of a compiled language is loaded as the same language. -/
theorem Json.decodes_written :
    ∀ write ∈ [Json.compact, Json.pretty],
      (∀ g : Grammar, run Grammar.decoder (write g.toJson) = .ok g) ∧
      (∀ t : Token, t.IsBounded → run Token.decoder (write t.toJson) = .ok t) ∧
      ∀ (name name' : String) (g : Grammar) (l : Language), Language.ofGrammar name g = .ok l →
        Language.ofJson name' (write l.grammar.toJson) = .ok { l with name := name' } := by
  intro write hwrite
  have hrun : ∀ {α : Type} {d : Decoder α} {j : Json} {x : α}, Reads d j x →
      run d (write j) = .ok x := by
    intro α d j x h
    rcases List.mem_pair.mp hwrite with rfl | rfl
    · exact h.run_compact
    · exact h.run_pretty
  refine ⟨fun g => hrun g.reads_toJson, fun t ht => hrun (Token.reads_toJson ht), ?_⟩
  intro name name' g l h
  exact Language.ofJson_eq_ok (hrun l.grammar.reads_toJson) (Language.ofGrammar_grammar h name')

/-- A grammar whose delimiters have to be escaped in every way. -/
def Grammar.escaped : Grammar where
  lexicon :=
    { lineJoin := some "\\"
      comments := [.line "\t/", .multiline "\x01\x08" "\x0c\r"]
      symbols := "[a-zé]+"
      numbers := "\\d+"
      operators := ["\x1f", "€"]
      brackets := [{ opening := "\x0b", closing := "\x7f" }]
      strings := [{ opening := "\"", templates :=
        [.code "\x02" "\x03", .reference "$" "[a-z]+" ["€"]] }] }
  layout := { indentBlocks := true }

/-- A token that stands as far behind as a number can say. -/
def Token.farthest : Token where
  kind := .unknown
  value := "\"\\\n€"
  pos := { offset := Json.Reader.greatestNatural, line := Json.Reader.greatestNatural, col := 1 }
  lineBreaks := 1

theorem Json.decodes_written_escaped :
    Token.farthest.IsBounded ∧
    run Token.decoder Token.farthest.toJson.pretty = .ok .farthest ∧
    run Grammar.decoder Grammar.escaped.toJson.compact = .ok .escaped ∧
    ∃ l, Language.ofGrammar "escaped" .escaped = .ok l ∧
      Language.ofJson "loaded" l.grammar.toJson.compact = .ok { l with name := "loaded" } := by
  have hbounded : Token.farthest.IsBounded := by constructor <;> decide
  have hcompiles : (fun _ => ()) <$> Language.ofGrammar "escaped" .escaped = .ok () := by
    decide +kernel
  obtain ⟨l, hl, -⟩ := map_eq_ok_iff.mp hcompiles
  obtain ⟨hgrammar, -, hlanguage⟩ := decodes_written Json.compact List.mem_cons_self
  obtain ⟨-, htoken, -⟩ :=
    decodes_written Json.pretty (List.mem_cons_of_mem _ List.mem_cons_self)
  exact ⟨hbounded, htoken .farthest hbounded, hgrammar .escaped, l, hl,
    hlanguage _ "loaded" .escaped l hl⟩

end Nesting
