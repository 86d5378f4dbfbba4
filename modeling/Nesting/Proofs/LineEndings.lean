import Nesting.Language.Basic
import Nesting.Proofs.Language.Numbers
import Nesting.Proofs.Lexer.LineEndings
import Nesting.Proofs.Lexer.ReferenceCuts
import Nesting.Proofs.Tree.LineEndings

/-! # Sources and line endings

Whether the lines of a source end with a line feed or with a carriage return and a line feed does
not matter in the built-in languages (`LanguageEntry.meet_parse_withReturns`).

Their lexicons are of one line (`LanguageEntry.oneLined_of_mem_all`), so the tokens of a source are
those of its other spelling up to carriage returns (`RuleTable.respells_tokenize`), and such tokens
have the same tree (`Tree.meet_ofTokens`). -/

namespace Nesting

namespace LanguageEntry

variable {e : LanguageEntry}

/-! ### The built-in languages -/

/-- The expressions of the built-in languages, those of numbers apart. -/
def wordPatterns : List String :=
  [Builtin.identifier, "[a-zA-Z$_][a-zA-Z0-9$_]*", "[a-zA-Z_][a-zA-Z0-9_]*"]

theorem exists_parse_word {text : String} (h : text ∈ wordPatterns) :
    ∃ r, Regex.parse text = .ok r ∧ r.OnLine ∧ r.isNullable = false := by
  have hall : ∀ text ∈ wordPatterns,
      (fun r => (decide r.OnLine, r.isNullable)) <$> Regex.parse text = .ok (true, false) := by
    decide +kernel
  obtain ⟨r, hr, hline⟩ := map_eq_ok_iff.mp (hall text h)
  obtain ⟨hline, hnullable⟩ := Prod.mk.inj hline
  exact ⟨r, hr, of_decide_eq_true hline, hnullable⟩

theorem exists_parse_numbers (h : e ∈ all) :
    ∃ r, Regex.parse e.grammar.lexicon.numbers = .ok r ∧ r.OnLine ∧ r.isNullable = false := by
  obtain ⟨binary, hnumbers⟩ :
      ∃ binary, e.grammar.lexicon.numbers = Numbers.pattern binary := by
    simp only [all, List.mem_cons, List.not_mem_nil, or_false] at h
    rcases h with rfl | rfl | rfl | rfl
    exacts [⟨true, rfl⟩, ⟨true, rfl⟩, ⟨false, rfl⟩, ⟨false, rfl⟩]
  rw [hnumbers]
  exact ⟨_, Numbers.parse_pattern binary, by cases binary <;> decide⟩

theorem symbols_mem_wordPatterns (h : e ∈ all) : e.grammar.lexicon.symbols ∈ wordPatterns := by
  have hall : ∀ e ∈ all, e.grammar.lexicon.symbols ∈ wordPatterns := by decide +kernel
  exact hall e h

/-- The expressions of a built-in language are for texts of one line. -/
theorem exists_parse_expression (h : e ∈ all) {text : String}
    (ht : text ∈ e.grammar.lexicon.expressions) :
    ∃ r, Regex.parse text = .ok r ∧ r.OnLine ∧ r.isNullable = false := by
  have htemplates : ∀ e ∈ all, ∀ s ∈ e.grammar.lexicon.strings, ∀ t ∈ s.templates,
      ∀ text ∈ t.expressions, text ∈ wordPatterns := by
    decide +kernel
  simp only [Lexicon.expressions, List.cons_append, List.nil_append, List.mem_cons,
    List.mem_flatMap] at ht
  rcases ht with rfl | rfl | ⟨s, hs, t, hmem, ht⟩
  · exact exists_parse_word (symbols_mem_wordPatterns h)
  · exact exists_parse_numbers h
  · exact exists_parse_word (htemplates e h s hs t hmem text ht)

theorem oneLined_of_mem_all (h : e ∈ all) : e.grammar.lexicon.OneLined where
  delimiters := by
    have hall : ∀ e ∈ all, ∀ text ∈ e.grammar.lexicon.delimiters, OnOneLine text.toList := by
      decide +kernel
    exact hall e h
  expressions text ht r hr := by
    obtain ⟨r', hr', hline⟩ := exists_parse_expression h ht
    cases hr.symm.trans hr'
    exact hline

/-- The built-in languages compile. -/
theorem exists_ofLexicon_of_mem_all (h : e ∈ all) :
    ∃ table, RuleTable.ofLexicon e.grammar.lexicon = .ok table := by
  have hcheck : ∀ e ∈ all, e.grammar.lexicon.check = .ok () := by decide +kernel
  have hstrings : ∀ e ∈ all, ((e.grammar.lexicon.strings.mapIdx fun i s =>
      RuleTable.stringRules i s).mapM id).isOk := by
    decide +kernel
  obtain ⟨symbols, hsymbols, -⟩ := exists_parse_word (symbols_mem_wordPatterns h)
  obtain ⟨numbers, hnumbers, -⟩ := exists_parse_numbers h
  exact RuleTable.exists_ofLexicon (hcheck e h) ⟨_, hsymbols⟩ ⟨_, hnumbers⟩ (hstrings e h)

/-- **Line endings do not matter.**  A built-in language fails on a source without carriage returns
exactly if it fails on the source with a carriage return in front of each line feed, and then at the
same line and column.  If it does not, the two trees are equal, but for carriage returns in the
values of tokens, and for offsets and columns. -/
theorem meet_parse_withReturns (h : e ∈ all) :
    ∃ l, e.compile = .ok l ∧ ∀ source : String, '\r' ∉ source.toList →
      Meet (fun s t => t.withoutReturns = s.withoutReturns) (l.parse source)
        (l.parse (withReturns source)) := by
  obtain ⟨table, htable⟩ := exists_ofLexicon_of_mem_all h
  have hcompile : e.compile = .ok ⟨e.name, e.grammar, table⟩ := by
    rw [compile, Language.ofGrammar, htable]
    rfl
  exact ⟨_, hcompile, fun source hsource => Tree.meet_ofTokens _
    (RuleTable.respells_tokenize (oneLined_of_mem_all h) htable hsource)⟩

/-- The values of the leaves of a tree. -/
def leafValues (t : Tree) : List String := t.toNode.leaves.map Token.value

/-- In Starlark, an escape takes the first half of the line ending behind it, and so do the blanks
in front of the other line ending.  The third line of the second source goes on from none of the
lines before it. -/
theorem meet_parse_withReturns_starlark :
    ∃ e ∈ all, ∃ l, e.compile = .ok l ∧ l.name = "starlark" ∧
      (∃ s t, l.parse "'\\\n' \n" = .ok s ∧ l.parse "'\\\r\n' \r\n" = .ok t ∧
        leafValues s = ["", "'", "", "\\\n", "", "'", " ", "\n", ""] ∧
        leafValues t = ["", "'", "", "\\\r\n", "", "'", " \r", "\n", ""] ∧
        t.withoutReturns = s.withoutReturns) ∧
      l.parse "a\n  b\n \tc\n" = .error (.inconsistentIndent 3 3 "  " " \t") ∧
      ∃ expected found, l.parse "a\r\n  b\r\n \tc\r\n" =
        .error (.inconsistentIndent 3 3 expected found) := by
  have run : (fun l : Language => (l.name, leafValues <$> l.parse "'\\\n' \n",
      leafValues <$> l.parse "'\\\r\n' \r\n", (fun _ => ()) <$> l.parse "a\n  b\n \tc\n")) <$>
      Language.ofGrammar "starlark" Builtin.starlark =
        .ok ("starlark", .ok ["", "'", "", "\\\n", "", "'", " ", "\n", ""],
          .ok ["", "'", "", "\\\r\n", "", "'", " \r", "\n", ""],
          .error (.inconsistentIndent 3 3 "  " " \t")) := by
    -- the expression of numbers is too long a text to be parsed here once more
    rw [Language.ofGrammar, RuleTable.ofLexicon, RuleTable.rootRules, LexRegex.read, LexRegex.read,
      show Builtin.starlark.lexicon.numbers = Numbers.pattern false from rfl, Numbers.parse_pattern]
    decide +kernel
  have hmem : all[3] ∈ all := List.getElem_mem _
  obtain ⟨l, hcompile, hmeet⟩ := meet_parse_withReturns hmem
  obtain ⟨l', hl', run⟩ := map_eq_ok_iff.mp run
  obtain rfl : l = l' := Except.ok.inj (hcompile.symm.trans hl')
  simp only [Prod.mk.injEq] at run
  obtain ⟨hname, hvalues, hvalues', hfails⟩ := run
  obtain ⟨s, hs, hvalues⟩ := map_eq_ok_iff.mp hvalues
  obtain ⟨t, ht, hvalues'⟩ := map_eq_ok_iff.mp hvalues'
  have hfails : l.parse "a\n  b\n \tc\n" = .error (.inconsistentIndent 3 3 "  " " \t") := by
    cases hparse : l.parse "a\n  b\n \tc\n" with
    | ok u => rw [hparse] at hfails; cases hfails
    | error e => rw [hparse] at hfails; cases hfails; rfl
  have hsame := hmeet "'\\\n' \n" (by decide)
  have hboth := hmeet "a\n  b\n \tc\n" (by decide)
  rw [show withReturns "'\\\n' \n" = "'\\\r\n' \r\n" by decide +kernel, hs, ht] at hsame
  rw [show withReturns "a\n  b\n \tc\n" = "a\r\n  b\r\n \tc\r\n" by decide +kernel, hfails] at hboth
  refine ⟨_, hmem, l, hcompile, hname, ⟨s, t, hs, ht, hvalues, hvalues', ?_⟩, hfails, ?_⟩
  · cases hsame with
    | ok hsame => exact hsame
  · generalize l.parse "a\r\n  b\r\n \tc\r\n" = result at hboth
    cases hboth with
    | fails => exact ⟨_, _, rfl⟩

end LanguageEntry

end Nesting
