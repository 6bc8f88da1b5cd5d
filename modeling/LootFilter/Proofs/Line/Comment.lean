import LootFilter.Proofs.Line.Dispatch
import LootFilter.Proofs.Scanner.Extension

/-! Comments behind the values of a rule.

A list of values goes on as long as strings follow, and the sign of a comment may start a string. So a comment behind
the values is ignored only if it cannot be read as a string, or if what is read of it are values that the rule takes;
once the list has stopped at a comment, nothing behind it counts. -/

set_option autoImplicit false

namespace LootFilter

open Grammar
open Text (isBlank endsHere)

/-! ## Lists of values -/

namespace Grammar

def Listed (settings : Settings) (reference : Reference) (asked : List String) : Kind → String → Prop
  | .itemClass => ClassName settings reference
  | .baseType => BaseName settings reference asked
  | _ => fun _ => False

theorem Equality.append {text middle tail : List Char} (equality : Equality text middle)
    (blank : endsHere tail = true) : Equality (text ++ tail) (middle ++ tail) := by
  obtain rfl | follows := equality
  · exact .inl rfl
  · exact .inr (follows.append blank)

section
variable {text middle rest : List Char} {values : List String}

-- A string does not start like an operator, so there is one way only to leave the operator out or in.
theorem Equality.middle_eq {middle' rest' : List Char} {values' : List String} (equality : Equality text middle)
    (strings : Strings middle values rest) (some_values : values ≠ []) (equality' : Equality text middle')
    (strings' : Strings middle' values' rest') (some_values' : values' ≠ []) : middle = middle' := by
  obtain rfl | follows := equality
  · exact equality'.resolve_right (strings.no_operator some_values _ _)
  · obtain rfl | follows' := equality'
    · exact absurd follows (strings'.no_operator some_values' _ _)
    · exact (Lexeme.captures_operator.follows_unique follows follows').2

theorem whole_values_iff {test : String → Prop} (equality : Equality text middle)
    (strings : Strings middle values rest) (some_values : values ≠ []) :
    Whole (Then Equality (Values test)) text ↔ (∀ value ∈ values, test value) ∧ values.Nodup ∧ Ignorable rest := by
  constructor
  · rintro ⟨rest', ⟨middle', equality', values', strings', some_values', distinct, good⟩, ignorable⟩
    obtain rfl := equality.middle_eq strings some_values equality' strings' some_values'
    obtain ⟨rfl, rfl⟩ := strings.unique strings'
    exact ⟨good, distinct, ignorable⟩
  · rintro ⟨good, distinct, ignorable⟩
    exact ⟨rest, ⟨middle, equality, values, strings, some_values, distinct, good⟩, ignorable⟩

end

end Grammar

namespace Rule

section
variable {settings : Settings} {reference : Reference} {kind : Kind} {cursor : Cursor} {block : Block}
  (valued : kind = .itemClass ∨ kind = .baseType)
include valued

theorem read_listed_clean_iff (keyword : String) (head : Range) :
    (∃ outcome next, Rule.read settings reference kind keyword head cursor block = .ok (outcome, next) ∧
      outcome.findings = []) ↔
        Whole (Then Equality (Values (Listed settings reference block.classes kind))) cursor.rest := by
  obtain rfl | rfl := valued
  · exact exists_clean_iff _ rfl (readValues_clean_iff acceptsClass_iff keyword .itemClass cursor)
  · exact read_baseType_clean_iff

theorem cursor_of_read_listed {keyword : String} {head : Range} {outcome : Outcome} {next : Block}
    (done : Rule.read settings reference kind keyword head cursor block = .ok (outcome, next)) :
    outcome.cursor = cursor.readOperator.2.readStrings.2 := by
  obtain rfl | rfl := valued
  · cases done
    exact readValues_cursor _ _ _ _
  · rw [(read_baseType_eq_ok_iff.mp done).2.1, readValues_cursor]

end

end Rule

namespace Line

/-- The line names a rule with a list of values, has these values, and leaves the rest of its text. -/
structure Lists (text : List Char) (kind : Kind) (held : List String) (rest : List Char) : Prop where
  valued : kind = .itemClass ∨ kind = .baseType
  some_values : held ≠ []
  parts : ∃ name behind middle, Follows Shape.word text name behind ∧ Kind.ofKeyword? name = some kind ∧
    Equality behind middle ∧ Strings middle held rest

section
variable {text rest : List Char} {kind : Kind} {held : List String}

theorem Lists.append (lists : Lists text kind held rest) {tail last : List Char} {words : List String}
    (blank : endsHere tail = true) (later : Strings (rest ++ tail) words last) :
    Lists (text ++ tail) kind (held ++ words) last := by
  obtain ⟨valued, some_values, name, behind, middle, follows, known, equality, strings⟩ := lists
  exact ⟨valued, by simp [some_values], name, behind ++ tail, middle ++ tail, follows.append blank, known,
    equality.append blank, strings.append blank later⟩

theorem Lists.ended (lists : Lists text kind held rest) :
    ∀ value left, ¬Follows Shape.string rest value left := by
  obtain ⟨-, -, _, _, _, -, -, -, strings⟩ := lists
  exact strings.ended

theorem head?_of_follows {cursor : Cursor} {name : String} (follows : Follows Shape.word cursor.rest name rest) :
    ∃ word next, head? cursor = some (word, next) ∧ word.value = name ∧ next.rest = rest := by
  obtain ⟨word, next, found, same, left⟩ := Cursor.read_of_follows Lexeme.captures_word follows
  have visible : ¬cursor.isIgnorable = true := fun ignored =>
    not_ignorable_of_word follows (Cursor.isIgnorable_iff.mp ignored)
  exact ⟨word, next, by rw [head?, if_neg visible, Cursor.readWord, found], same, left⟩

theorem follows_of_head? {cursor next : Cursor} {word : Token String} (found : head? cursor = some (word, next)) :
    Follows Shape.word cursor.rest word.value next.rest :=
  (Cursor.read_eq_some Lexeme.captures_word (readWord_of_head? found)).1

end

section
variable {settings : Settings} {reference : Reference} {row : Int} {text : List Char} {block next : Block} {line : Line}
  {kind : Kind}

theorem Lists.rule {held : List String} {rest : List Char} (lists : Lists text kind held rest) (row : Int) :
    ∃ (word : Token String) (cursor : Cursor) (middle : List Char), head? ⟨row, text, 0⟩ = some (word, cursor) ∧
      Kind.ofKeyword? word.value = some kind ∧ Equality cursor.rest middle ∧ Strings middle held rest := by
  obtain ⟨-, -, name, behind, middle, follows, known, equality, strings⟩ := lists
  have start : Follows Shape.word (⟨row, text, 0⟩ : Cursor).rest name behind := follows
  obtain ⟨word, cursor, found, rfl, rfl⟩ := head?_of_follows start
  exact ⟨word, cursor, middle, found, known, equality, strings⟩

theorem Lists.named {held : List String} {rest : List Char} (lists : Lists text kind held rest) (row : Int) :
    headKind? text = some kind ∧ (values row text).map Token.value = held := by
  obtain ⟨word, cursor, middle, found, known, equality, strings⟩ := lists.rule row
  refine ⟨by rw [headKind?_of_head? found, known], ?_⟩
  simp only [values, found, (equality.valueTokens strings lists.some_values).1]

/-- The line is read clean if the values are different ones that the rule takes, and what they leave is ignored. -/
theorem Lists.clean_iff {held : List String} {rest : List Char} (lists : Lists text kind held rest)
    (oneLine : ∀ c ∈ text, Text.isBreak c = false) :
    (∃ line next, Line.read settings reference row text block = .ok (line, next) ∧ line.findings = []) ↔
      (∀ value ∈ held, Listed settings reference block.classes kind value) ∧ held.Nodup ∧ Ignorable rest := by
  obtain ⟨word, cursor, middle, found, known, equality, strings⟩ := lists.rule row
  rw [← whole_values_iff equality strings lists.some_values,
    ← Rule.read_listed_clean_iff lists.valued word.value word.range]
  constructor
  · rintro ⟨line, next, done, clean⟩
    obtain ⟨-, outcome, rule, rfl⟩ := (read_eq_ok_iff_rule found known).mp done
    exact ⟨outcome, next, rule, clean⟩
  · rintro ⟨outcome, next, rule, clean⟩
    exact ⟨_, next, (read_eq_ok_iff_rule found known).mpr ⟨oneLine, outcome, rule, rfl⟩, clean⟩

theorem Lists.unread? {held : List String} {rest : List Char} (lists : Lists text kind held rest)
    (done : Line.read settings reference row text block = .ok (line, next)) :
    unread? settings reference row text block = some rest := by
  obtain ⟨word, cursor, middle, found, known, equality, strings⟩ := lists.rule row
  obtain ⟨-, outcome, rule, -⟩ := (read_eq_ok_iff_rule found known).mp done
  simp only [Line.unread?, found, known, rule, Rule.cursor_of_read_listed lists.valued rule,
    (equality.valueTokens strings lists.some_values).2]

theorem Lists.read_ok {held : List String} {rest : List Char} (lists : Lists text kind held rest)
    (oneLine : ∀ c ∈ text, Text.isBreak c = false) (searchable : reference.lengthIndex.Searchable) :
    ∃ line next, Line.read settings reference row text block = .ok (line, next) := by
  obtain ⟨word, cursor, -, found, known, -, -⟩ := lists.rule row
  obtain ⟨outcome, next, rule⟩ :
      ∃ outcome next, Rule.read settings reference kind word.value word.range cursor block = .ok (outcome, next) := by
    obtain rfl | rfl := lists.valued
    · exact ⟨_, _, rfl⟩
    · obtain ⟨outcome, ok⟩ := Rule.read_baseType_ok settings searchable word.value word.range cursor block
      exact ⟨outcome, block, ok⟩
  exact ⟨_, next, (read_eq_ok_iff_rule found known).mpr ⟨oneLine, outcome, rule, rfl⟩⟩

theorem lists_of_clean (done : Line.read settings reference row text block = .ok (line, next))
    (clean : line.findings = []) (named : headKind? text = some kind)
    (valued : kind = .itemClass ∨ kind = .baseType) : ∃ held rest, Lists text kind held rest := by
  obtain ⟨-, ⟨nothing, -⟩ | ⟨word, cursor, kind', outcome, found, known, rule, rfl⟩⟩ := read_eq_ok_iff_dispatch.mp done
  · cases nothing.symm.trans named
  · rw [headKind?_of_head? found, known] at named
    cases named
    obtain ⟨rest, ⟨middle, equality, held, strings, some_values, -⟩, -⟩ :=
      (Rule.read_listed_clean_iff valued _ _).mp ⟨outcome, next, rule, clean⟩
    exact ⟨held, rest, valued, some_values, word.value, cursor.rest, middle, follows_of_head? found, known, equality,
      strings⟩

theorem Lists.classes {held : List String} {rest : List Char} (lists : Lists text kind held rest)
    (done : Line.read settings reference row text block = .ok (line, next)) :
    next.classes = block.classes ++
      if kind = .itemClass then held.filter (Rule.acceptsClass settings reference) else [] := by
  obtain ⟨named, own⟩ := lists.named row
  have inner : (some kind : Option Kind) ≠ some .block := by obtain rfl | rfl := lists.valued <;> nofun
  rw [(read_block done).1, named, if_neg inner]
  simp only [acceptedClasses, named, Option.some.injEq, ← values_value row, own]

theorem Lists.classes_eq_iff {held words : List String} {rest tail last : List Char} {longer : Line} {after : Block}
    (lists : Lists text kind held rest) (done : Line.read settings reference row text block = .ok (line, next))
    (lists' : Lists (text ++ tail) kind (held ++ words) last)
    (read : Line.read settings reference row (text ++ tail) block = .ok (longer, after)) :
    after.classes = next.classes ↔
      (kind = .itemClass → words.filter (Rule.acceptsClass settings reference) = []) := by
  rw [lists.classes done, lists'.classes read, List.append_cancel_left_eq, List.filter_append]
  split
  · next same => simp [same]
  · next other => simp [other]

theorem Lists.clean_and_classes_iff {held words : List String} {rest tail last : List Char}
    (lists : Lists text kind held rest) (done : Line.read settings reference row text block = .ok (line, next))
    (longer : Lists (text ++ tail) kind (held ++ words) last)
    (oneLine : ∀ c ∈ text ++ tail, Text.isBreak c = false) :
    (∃ more after, Line.read settings reference row (text ++ tail) block = .ok (more, after) ∧ more.findings = [] ∧
        after.classes = next.classes) ↔
      ((∀ value ∈ held ++ words, Listed settings reference block.classes kind value) ∧ (held ++ words).Nodup ∧
        Ignorable last) ∧ (kind = .itemClass → words.filter (Rule.acceptsClass settings reference) = []) := by
  rw [← longer.clean_iff oneLine]
  constructor
  · rintro ⟨more, after, read, clean, classes⟩
    exact ⟨⟨more, after, read, clean⟩, (lists.classes_eq_iff done longer read).mp classes⟩
  · rintro ⟨⟨more, after, read, clean⟩, none⟩
    exact ⟨more, after, read, clean, (lists.classes_eq_iff done longer read).mpr none⟩

end

/-! ## A comment behind them -/

/-- The strings behind the text that a rule leaves and a comment behind that: none if the rule has left a comment
already, else those of the comment. -/
theorem strings_behind {rest : List Char} (ignorable : Ignorable rest)
    (nothing : ∀ value left, ¬Follows Shape.string rest value left) {blanks : List Char} (some_blanks : blanks ≠ [])
    (all : ∀ c ∈ blanks, isBlank c = true) (comment : List Char) :
    ∃ words last, Strings (rest ++ (blanks ++ '#' :: comment)) words last ∧
      ((words = [] ∧ Ignorable last ∧ (Text.allBlank rest = false ∨ ∃ left, Strings ('#' :: comment) [] left)) ∨
        (words ≠ [] ∧ Text.allBlank rest = true ∧ Strings ('#' :: comment) words last)) := by
  have blank : endsHere (blanks ++ '#' :: comment) = true := Text.endsHere_of_blanks some_blanks all _
  cases left : Text.allBlank rest with
  | false =>
    -- The rule has stopped before a comment, and it stops there again.
    obtain onlyBlanks | ⟨before, text, rfl, allBefore⟩ := ignorable
    · rw [Text.allBlank, List.all_eq_true.mpr onlyBlanks] at left
      cases left
    · refine ⟨[], _, .done (no_string_of_comment allBefore nothing blank), .inl ⟨rfl, ?_, .inl rfl⟩⟩
      exact .inr ⟨before, text ++ (blanks ++ '#' :: comment), by simp, allBefore⟩
  | true =>
    have allLeft : ∀ c ∈ rest ++ blanks, isBlank c = true :=
      List.forall_mem_append.mpr ⟨List.all_eq_true.mp left, all⟩
    rw [← List.append_assoc]
    obtain ⟨words, last, strings⟩ := exists_strings ('#' :: comment)
    cases words with
    | nil =>
      have none : ∀ value after, ¬Follows Shape.string (rest ++ blanks ++ '#' :: comment) value after := by
        intro value after follows
        rw [Lexeme.captures_string.follows_blanks_iff allLeft] at follows
        cases strings with
        | done nothing => exact nothing _ _ follows
      exact ⟨[], _, .done none, .inl ⟨rfl, .inr ⟨rest ++ blanks, comment, rfl, allLeft⟩, .inr ⟨last, strings⟩⟩⟩
    | cons word words =>
      exact ⟨word :: words, last, strings.of_blanks allLeft, .inr ⟨List.cons_ne_nil _ _, rfl, strings⟩⟩

section
variable {settings : Settings} {reference : Reference} {row : Int} {text : List Char} {block : Block}

theorem comment_values_iff {comment rest last : List Char} {words : List String}
    (unread : unread? settings reference row text block = some rest) (left : Text.allBlank rest = true)
    (strings : Strings ('#' :: comment) words last) (some_words : words ≠ []) (known : List String → List Char → Prop) :
    ((∃ rest, unread? settings reference row text block = some rest ∧ Text.allBlank rest = false) ∨
      ∃ words rest, Strings ('#' :: comment) words rest ∧ (words = [] ∨ known words rest)) ↔ known words last := by
  constructor
  · rintro (⟨rest', unread', visible⟩ | ⟨words', rest', strings', why⟩)
    · cases unread.symm.trans unread'
      cases left.symm.trans visible
    · obtain ⟨rfl, rfl⟩ := strings.unique strings'
      exact why.resolve_left some_words
  · intro holds
    exact .inr ⟨words, last, strings, .inr holds⟩

end

/-- A comment behind a clean list of values leaves the line clean and the classes as they are if and only if the list
has a comment already, the comment does not start with a string, or its strings are further values of a `BaseType`
rule. If every search for a base answers, the line with the comment can be read in any case. -/
theorem comment_ignored_iff (settings : Settings) (reference : Reference) (row : Int) (text : List Char)
    (block next : Block) (line : Line) (done : Line.read settings reference row text block = .ok (line, next))
    (clean : line.findings = []) (valued : line.kind? = some .itemClass ∨ line.kind? = some .baseType)
    (blanks comment : List Char) (some_blanks : blanks ≠ []) (all : ∀ c ∈ blanks, isBlank c = true)
    (oneLine : ∀ c ∈ blanks ++ '#' :: comment, Text.isBreak c = false) :
    (reference.lengthIndex.Searchable → ∃ commented after,
      Line.read settings reference row (text ++ (blanks ++ '#' :: comment)) block = .ok (commented, after)) ∧
      ((∃ commented after,
          Line.read settings reference row (text ++ (blanks ++ '#' :: comment)) block = .ok (commented, after) ∧
            commented.findings = [] ∧ after.classes = next.classes) ↔
        (∃ rest, unread? settings reference row text block = some rest ∧ Text.allBlank rest = false) ∨
        ∃ words rest, Strings ('#' :: comment) words rest ∧
          (words = [] ∨
            line.kind? = some .baseType ∧ (∀ word ∈ words, BaseName settings reference block.classes word) ∧
              ((values row text).map Token.value ++ words).Nodup ∧ Ignorable rest)) := by
  rw [read_kind? done] at valued ⊢
  obtain ⟨kind, named, valued⟩ : ∃ kind, headKind? text = some kind ∧ (kind = .itemClass ∨ kind = .baseType) :=
    valued.elim (fun named => ⟨_, named, .inl rfl⟩) fun named => ⟨_, named, .inr rfl⟩
  obtain ⟨held, rest, lists⟩ := lists_of_clean done clean named valued
  have oneLine' := (read_eq_ok_iff.mp done).1
  have own := (lists.named row).2
  have unread := lists.unread? done
  obtain ⟨good, distinct, ignorable⟩ := (lists.clean_iff oneLine').mp ⟨line, next, done, clean⟩
  -- The longer line has the same values, and then those that the comment adds.
  obtain ⟨words, last, strings, behind⟩ := strings_behind ignorable lists.ended some_blanks all comment
  have longer := lists.append (Text.endsHere_of_blanks some_blanks all _) strings
  have oneLine'' : ∀ c ∈ text ++ (blanks ++ '#' :: comment), Text.isBreak c = false :=
    List.forall_mem_append.mpr ⟨oneLine', oneLine⟩
  refine ⟨fun searchable => longer.read_ok oneLine'' searchable, ?_⟩
  rw [lists.clean_and_classes_iff done longer oneLine'', named, own, List.forall_mem_append, and_iff_right good]
  obtain ⟨rfl, ignored, why⟩ | ⟨some_words, left, strings'⟩ := behind
  · -- No string is read behind the values.
    simp only [List.not_mem_nil, false_implies, implies_true, List.append_nil, distinct, ignored, List.filter_nil,
      and_self, true_iff]
    obtain plain | ⟨left, none⟩ := why
    · exact .inl ⟨rest, unread, plain⟩
    · exact .inr ⟨[], left, none, .inl rfl⟩
  · -- The comment is read as values, and nothing else explains a clean line.
    refine Iff.trans ?_ (comment_values_iff unread left strings' some_words _).symm
    obtain rfl | rfl := valued
    · constructor
      · rintro ⟨⟨taken, -⟩, none⟩
        have kept : words.filter (Rule.acceptsClass settings reference) = words :=
          List.filter_eq_self.mpr fun word member => (Rule.acceptsClass_iff word).mpr (taken word member)
        exact absurd (kept.symm.trans (none rfl)) some_words
      · rintro ⟨named, -⟩
        cases named
    · simp [Listed]

theorem quoted_comment_ignored :
    ∃ commented after, Line.read {} Bundled.reference 0 "Class Rings #\"old\"".toList {} = .ok (commented, after) ∧
      commented.findings = [] ∧ after.classes = ["Rings"] := by
  have done : Line.read {} Bundled.reference 0 "Class Rings".toList {} =
      .ok ({ row := 0, range := ⟨⟨0, 0⟩, ⟨0, 11⟩⟩, keyword := some ⟨"Class", ⟨⟨0, 0⟩, ⟨0, 5⟩⟩, some .itemClass⟩ },
        { classes := ["Rings"] }) := by rfl
  have ignored := (comment_ignored_iff {} Bundled.reference 0 _ {} _ _ done rfl (.inl rfl) [' '] "\"old\"".toList
    (by simp) (List.forall_mem_singleton.mpr rfl) (by simp [Text.isBreak])).2
  have strings : Strings "#\"old\"".toList [] "#\"old\"".toList :=
    Cursor.strings_readStrings ⟨0, "#\"old\"".toList, 0⟩
  exact ignored.mpr (.inr ⟨[], _, strings, .inl rfl⟩)

/-- The words of a comment become values: its sign is no class, and a class that it names is asked for. -/
theorem comment_read_as_classes :
    ∃ line next commented after,
      Line.read {} Bundled.reference 0 "Class Belts".toList {} = .ok (line, next) ∧ line.kind? = some .itemClass ∧
      line.findings = [] ∧ next.classes = ["Belts"] ∧
      Line.read {} Bundled.reference 0 "Class Belts # Rings".toList {} = .ok (commented, after) ∧
      commented.findings = [⟨.invalidValue "Class" .itemClass, ⟨⟨0, 12⟩, ⟨0, 13⟩⟩⟩] ∧
      after.classes = ["Belts", "Rings"] := by
  have plain : Line.read {} Bundled.reference 0 "Class Belts".toList {} =
      .ok ({ row := 0, range := ⟨⟨0, 0⟩, ⟨0, 11⟩⟩, keyword := some ⟨"Class", ⟨⟨0, 0⟩, ⟨0, 5⟩⟩, some .itemClass⟩ },
        { classes := ["Belts"] }) := by rfl
  have commented : Line.read {} Bundled.reference 0 "Class Belts # Rings".toList {} =
      .ok ({ row := 0, range := ⟨⟨0, 0⟩, ⟨0, 19⟩⟩
             findings := [⟨.invalidValue "Class" .itemClass, ⟨⟨0, 12⟩, ⟨0, 13⟩⟩⟩]
             keyword := some ⟨"Class", ⟨⟨0, 0⟩, ⟨0, 5⟩⟩, some .itemClass⟩ },
        { classes := ["Belts", "Rings"] }) := by rfl
  exact ⟨_, _, _, _, plain, rfl, rfl, rfl, commented, rfl, rfl⟩

end Line

end LootFilter
