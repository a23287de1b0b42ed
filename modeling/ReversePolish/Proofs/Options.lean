import ReversePolish.CommandLine
import ReversePolish.Proofs.Descriptions
import ReversePolish.Proofs.Formula

/-! # Tables from the command line

The parts of a symbol table are given on the command line one value at a time and in any order
(`Gives`), and functions and operators are built from their descriptions as they come.  The table
that results is the one that the texts describe, where the standard texts stand for every part that
is not given (`table_ofArguments`); if the texts describe none, the error is the same.

`Has` says which texts an option has been given so far.  One more text is added to those of its own
option alone (`Has.add`), so at the end every option has all of its texts, whatever their order on
the command line (`exists_addAll`), and the table depends on these texts only (`table_of_has`). -/

namespace ReversePolish.Options

/-! ### Arguments -/

/-- An option as an argument. -/
def flag (name : Name) : String := "--" ++ name.text

/-- An option with its value as one argument. -/
def argument (name : Name) (value : String) : String := flag name ++ "=" ++ value

/-- The ways to write an option with its value: as one argument, or as two if the value does not
look like an option. -/
inductive Writes (name : Name) (value : String) : List String → Prop
  | joined : Writes name value [argument name value]
  | separate : value.toList.head? ≠ some '-' → Writes name value [flag name, value]

/-- The command lines that give options their values, in this order, and at most one expression.
The expression does not look like an option, unless it comes after `--`. -/
inductive Gives : List String → List (Name × String) → Option String → Prop
  | nothing : Gives [] [] none
  | rest {text : String} : Gives ["--", text] [] (some text)
  | expression {text : String} {arguments : List String} {items : List (Name × String)} :
      text.toList.head? ≠ some '-' → Gives arguments items none →
      Gives (text :: arguments) items (some text)
  | option {name : Name} {value : String} {written arguments : List String}
      {items : List (Name × String)} {text : Option String} :
      Writes name value written → Gives arguments items text →
      Gives (written ++ arguments) ((name, value) :: items) text

theorem ofArgument?_flag (name : Name) : Name.ofArgument? (flag name) = some (name, none) := by
  cases name <;> decide

theorem ofArgument?_argument (name : Name) (value : String) :
    Name.ofArgument? (argument name value) = some (name, some value) := by
  have text_eq : (argument name value).toList =
      ("--".toList ++ name.text.toList) ++ '=' :: value.toList := by
    simp [argument, flag]
  have no_equals : '=' ∉ "--".toList ++ name.text.toList := by cases name <;> decide
  have found : Name.all.find?
      (fun option => "--".toList ++ option.text.toList = "--".toList ++ name.text.toList) =
        some name := by
    cases name <;> decide
  rw [Name.ofArgument?, text_eq, Text.splitFirst_append no_equals]
  dsimp only
  rw [found, Option.map_some, String.ofList_toList]

theorem ofArgument?_eq_none {text : String} (plain : text.toList.head? ≠ some '-') :
    Name.ofArgument? text = none := by
  have no_dashes {cs after : List Char} (front : text.toList = cs ++ after) (name : Name) :
      "--".toList ++ name.text.toList ≠ cs := by
    rintro rfl
    rw [front] at plain
    exact plain rfl
  unfold Name.ofArgument?
  dsimp only
  rw [Option.map_eq_none_iff, List.find?_eq_none]
  cases split : Text.splitFirst '=' text.toList with
  | none => simpa using fun name _ => no_dashes (List.append_nil _).symm name
  | some parts =>
      have front := (Text.splitFirst_eq_some_iff.mp split).1
      simpa using fun name _ => no_dashes front name

theorem Writes.addAll {name : Name} {value : String} {written : List String}
    (writes : Writes name value written) (o : Options) (arguments : List String) :
    o.addAll (written ++ arguments) = (o.add name value).bind fun o => o.addAll arguments := by
  have no_name : Name.ofArgument? "--" = none := by decide
  cases writes with
  | joined =>
      have ne : argument name value ≠ "--" := by
        intro eq
        rw [← eq, ofArgument?_argument] at no_name
        cases no_name
      rw [List.singleton_append, addAll.eq_def]
      dsimp only
      rw [if_neg ne, ofArgument?_argument]
      rfl
  | separate _ =>
      have ne : flag name ≠ "--" := by
        intro eq
        rw [← eq, ofArgument?_flag] at no_name
        cases no_name
      rw [List.cons_append, List.singleton_append, addAll.eq_def]
      dsimp only
      rw [if_neg ne, ofArgument?_flag]
      rfl

theorem addAll_expression {text : String} (plain : text.toList.head? ≠ some '-') (o : Options)
    (arguments : List String) :
    o.addAll (text :: arguments) = (o.addExpression text).bind fun o => o.addAll arguments := by
  have ne : text ≠ "--" := by
    rintro rfl
    exact plain rfl
  rw [addAll.eq_def]
  dsimp only
  rw [if_neg ne, ofArgument?_eq_none plain]
  rfl

/-! ### Values -/

/-- The values that one option is given, in their order. -/
def valuesOf (name : Name) (items : List (Name × String)) : List String :=
  (items.filter fun item => item.1 = name).map Prod.snd

theorem valuesOf_nil (name : Name) : valuesOf name [] = [] := rfl

theorem valuesOf_append (name : Name) (items items' : List (Name × String)) :
    valuesOf name (items ++ items') = valuesOf name items ++ valuesOf name items' := by
  rw [valuesOf, List.filter_append, List.map_append, valuesOf, valuesOf]

theorem valuesOf_cons_self (name : Name) (value : String) (items : List (Name × String)) :
    valuesOf name ((name, value) :: items) = value :: valuesOf name items := by
  simp [valuesOf]

theorem valuesOf_cons_of_ne {name name' : Name} (ne : name' ≠ name) (value : String)
    (items : List (Name × String)) :
    valuesOf name ((name', value) :: items) = valuesOf name items := by
  simp [valuesOf, ne]

/-- The texts that a command line may give, by the parts of a table. -/
structure Given where
  numberChars : Option String
  functions : List String
  operators : List String
  dividers : List String
  openings : List String
  closings : List String

namespace Given

/-- The values of one option. -/
def values (given : Given) : Name → List String
  | .numberChars => given.numberChars.toList
  | .function => given.functions
  | .operator => given.operators
  | .divider => given.dividers
  | .opening => given.openings
  | .closing => given.closings

/-- Whether the values of each option are given in their order, whatever stands between them. -/
def Arranged (given : Given) (items : List (Name × String)) : Prop :=
  ∀ name, valuesOf name items = given.values name

/-- The texts that are given, and the standard ones for each part that is not. -/
def descriptions (given : Given) : SymbolTable.Descriptions where
  numberChars := given.numberChars.getD SymbolTable.standardNumberChars
  functions := if given.functions = [] then SymbolTable.standardFunctions else given.functions
  operators := if given.operators = [] then SymbolTable.standardOperators else given.operators
  dividers := if given.dividers = [] then SymbolTable.standardDividers else given.dividers
  openings := if given.openings = [] then SymbolTable.standardOpenings else given.openings
  closings := if given.closings = [] then SymbolTable.standardClosings else given.closings

end Given

/-! ### What has been given so far -/

/-- The options have been given some texts for one of them: functions and operators are what the
texts describe. -/
def Has (o : Options) : Name → List String → Prop
  | .numberChars, texts => o.numberChars.toList = texts
  | .function, texts =>
    List.Forall₂ (fun text f => FunctionSymbol.ofDescription text = .ok f) texts o.functions
  | .operator, texts =>
    List.Forall₂ (fun text s => OperatorSymbol.ofDescription text = .ok s) texts o.operators
  | .divider, texts => o.dividers = texts
  | .opening, texts => o.openings = texts
  | .closing, texts => o.closings = texts

/-- Whether an option that has some texts takes one more: number characters are given only once, and
functions and operators by a description. -/
def Accepts (texts : List String) : Name → String → Prop
  | .numberChars, _ => texts = []
  | .function, text => ∃ f, FunctionSymbol.ofDescription text = .ok f
  | .operator, text => ∃ s, OperatorSymbol.ofDescription text = .ok s
  | _, _ => True

variable {o : Options} {name : Name} {texts : List String} {value : String}

theorem forall₂_snoc {α β : Type} {R : α → β → Prop} {xs : List α} {ys : List β} {x : α} {y : β}
    (h : List.Forall₂ R xs ys) (last : R x y) : List.Forall₂ R (xs ++ [x]) (ys ++ [y]) :=
  List.rel_append h (List.Forall₂.cons last List.Forall₂.nil)

/-- One more text is added to those of its option, and changes nothing else. -/
theorem Has.add (h : o.Has name texts) (accepts : Accepts texts name value) :
    ∃ next, o.add name value = .ok next ∧ next.Has name (texts ++ [value]) ∧
      (∀ other ≠ name, next.Has other = o.Has other) ∧ next.expression = o.expression := by
  cases name with
  | numberChars =>
      obtain rfl : texts = [] := accepts
      have none_given : o.numberChars = none := Option.toList_eq_nil_iff.mp h
      refine ⟨{ o with numberChars := some value }, ?_, rfl, fun other ne => ?_, rfl⟩
      · simp [Options.add, none_given]
      · cases other <;> trivial
  | function =>
      obtain ⟨f, described⟩ := accepts
      refine ⟨{ o with functions := o.functions ++ [f] }, ?_, forall₂_snoc h described,
        fun other ne => ?_, rfl⟩
      · rw [Options.add, described]
      · cases other <;> trivial
  | operator =>
      obtain ⟨s, described⟩ := accepts
      refine ⟨{ o with operators := o.operators ++ [s] }, ?_, forall₂_snoc h described,
        fun other ne => ?_, rfl⟩
      · rw [Options.add, described]
      · cases other <;> trivial
  | divider | opening | closing =>
      cases h
      refine ⟨_, rfl, rfl, fun other ne => ?_, rfl⟩
      cases other <;> trivial

theorem Has.addExpression (h : o.Has name texts) (text : String) :
    Options.Has { o with expression := some text } name texts := by
  cases name <;> exact h

/-! ### All values of a command line -/

section Given

variable {given : Given} {front back : List (Name × String)}
  (functions : ∀ text ∈ given.functions, ∃ f, FunctionSymbol.ofDescription text = .ok f)
  (operators : ∀ text ∈ given.operators, ∃ s, OperatorSymbol.ofDescription text = .ok s)
include functions operators

theorem accepts_of_arranged (arranged : given.Arranged (front ++ (name, value) :: back)) :
    Accepts (valuesOf name front) name value := by
  have parts : valuesOf name front ++ value :: valuesOf name back = given.values name := by
    rw [← arranged name, valuesOf_append, valuesOf_cons_self]
  have mem : value ∈ given.values name := by simp [← parts]
  cases name with
  | numberChars =>
      have once : given.numberChars.toList.length ≤ 1 := by cases given.numberChars <;> simp
      have length_eq := congrArg List.length parts
      rw [List.length_append, List.length_cons] at length_eq
      refine List.eq_nil_of_length_eq_zero ?_
      change _ = given.numberChars.toList.length at length_eq
      omega
  | function => exact functions value mem
  | operator => exact operators value mem
  | divider | opening | closing => trivial

theorem exists_add (arranged : given.Arranged (front ++ (name, value) :: back))
    (has : ∀ name, o.Has name (valuesOf name front)) :
    ∃ next, o.add name value = .ok next ∧
      (∀ other, next.Has other (valuesOf other (front ++ [(name, value)]))) ∧
      next.expression = o.expression := by
  obtain ⟨next, added, here, others, same⟩ :=
    (has name).add (accepts_of_arranged functions operators arranged)
  refine ⟨next, added, fun other => ?_, same⟩
  rw [valuesOf_append]
  by_cases same_name : name = other
  · subst same_name
    rwa [valuesOf_cons_self]
  · rw [valuesOf_cons_of_ne same_name, valuesOf_nil, List.append_nil,
      others other (Ne.symm same_name)]
    exact has other

/-- After a command line has been added, all of its values have been given, and its expression. -/
theorem exists_addAll {arguments : List String} {text : Option String}
    (gives : Gives arguments back text) (arranged : given.Arranged (front ++ back))
    (has : ∀ name, o.Has name (valuesOf name front)) (free : o.expression = none ∨ text = none) :
    ∃ next, o.addAll arguments = .ok next ∧ (∀ name, next.Has name (given.values name)) ∧
      next.expression = o.expression.or text := by
  -- What is already added is `front`, which grows by one value with every option.
  induction gives generalizing o front with
  | nothing =>
      rw [List.append_nil] at arranged
      refine ⟨o, addAll.eq_def o [], fun name => arranged name ▸ has name, ?_⟩
      rw [Option.or_none]
  | @rest text =>
      rw [List.append_nil] at arranged
      have free : o.expression = none := free.resolve_right (by simp)
      refine ⟨{ o with expression := some text }, ?_,
        fun name => arranged name ▸ (has name).addExpression text, ?_⟩
      · simp [addAll, addExpression, free]
      · rw [free, Option.none_or]
  | @expression text arguments items plain _ ih =>
      have free : o.expression = none := free.resolve_right (by simp)
      obtain ⟨next, added, has_all, same⟩ :=
        ih arranged (fun name => (has name).addExpression text) (Or.inr rfl)
      refine ⟨next, ?_, has_all, ?_⟩
      · rw [addAll_expression plain, addExpression, free]
        exact added
      · rw [same, free, Option.or_none, Option.none_or]
  | option writes _ ih =>
      obtain ⟨next, added, has', same⟩ := exists_add functions operators arranged has
      rw [List.append_cons] at arranged
      obtain ⟨final, added', has_all, same'⟩ := ih arranged has' (same ▸ free)
      refine ⟨final, ?_, has_all, same ▸ same'⟩
      rw [writes.addAll, added]
      exact added'

end Given

/-! ### The table -/

variable {given : Given}

theorem givenOr_of_eq {given texts : List String} (h : given = texts) (standard : List String) :
    givenOr given standard = if texts = [] then standard else texts := by
  subst h
  cases given <;> rfl

theorem forall₂_givenOr {α β : Type} [DecidableEq α] {R : α → β → Prop} {texts usual : List α}
    {given standard : List β} (h : List.Forall₂ R texts given)
    (h' : List.Forall₂ R usual standard) :
    List.Forall₂ R (if texts = [] then usual else texts) (givenOr given standard) := by
  cases h with
  | nil => exact h'
  | cons first rest => exact List.Forall₂.cons first rest

theorem table_of_has (has : ∀ name, o.Has name (given.values name)) :
    o.table = given.descriptions.table := by
  have functions : given.descriptions.functions.mapM FunctionSymbol.ofDescription =
      .ok (givenOr o.functions SymbolTable.standard.functions) :=
    mapM_eq_ok_iff.mpr (forall₂_givenOr (has .function) (mapM_eq_ok_iff.mp rfl))
  have operators : given.descriptions.operators.mapM OperatorSymbol.ofDescription =
      .ok (givenOr o.operators SymbolTable.standard.operators) :=
    mapM_eq_ok_iff.mpr (forall₂_givenOr (has .operator) (mapM_eq_ok_iff.mp rfl))
  have numberChars : (o.numberChars.map String.toList).getD SymbolTable.standard.numberChars =
      given.descriptions.numberChars.toList := by
    have listed : o.numberChars.toList = given.numberChars.toList := has .numberChars
    have same : o.numberChars = given.numberChars := by simpa using congrArg List.head? listed
    rw [same, Given.descriptions]
    cases given.numberChars <;> rfl
  have dividers : givenOr o.dividers SymbolTable.standard.dividers =
      given.descriptions.dividers := givenOr_of_eq (has .divider) _
  have openings : givenOr o.openings SymbolTable.standard.openings =
      given.descriptions.openings := givenOr_of_eq (has .opening) _
  have closings : givenOr o.closings SymbolTable.standard.closings =
      given.descriptions.closings := givenOr_of_eq (has .closing) _
  rw [SymbolTable.Descriptions.table, SymbolTable.ofDescriptions, functions, operators, table,
    numberChars, dividers, openings, closings]
  rfl

/-- If every description that is given on a command line describes a symbol, the table of the
command line is that of the given texts, with the standard texts for each part that is not given. -/
theorem table_ofArguments {arguments : List String} {items : List (Name × String)}
    {text : Option String} (gives : Gives arguments items text) (arranged : given.Arranged items)
    (functions : ∀ text ∈ given.functions, ∃ f, FunctionSymbol.ofDescription text = .ok f)
    (operators : ∀ text ∈ given.operators, ∃ s, OperatorSymbol.ofDescription text = .ok s) :
    ∃ o, ofArguments arguments = .ok o ∧ o.expression = text ∧
      o.table = given.descriptions.table := by
  have nothing : ∀ name, empty.Has name (valuesOf name []) := by
    intro name
    cases name with
    | function | operator => exact List.Forall₂.nil
    | numberChars | divider | opening | closing => rfl
  have from_start : given.Arranged ([] ++ items) := arranged
  obtain ⟨o, added, has, expression_eq⟩ :=
    exists_addAll functions operators gives from_start nothing (Or.inl rfl)
  exact ⟨o, added, expression_eq, table_of_has has⟩

/-- Parts that are given next to parts that are not, with no number characters at all. -/
def partlyGiven : Given where
  numberChars := some ""
  functions := ["pi:+0"]
  operators := []
  dividers := [";", "="]
  openings := []
  closings := ["]"]

/-- Values of one option need not be given next to each other, nor before the expression, and a
command line that gives an empty divider has no table. -/
theorem table_ofArguments_partlyGiven :
    (Gives ["2 pi", "--divider=;", "--number-chars", "", "--closing-bracket", "]",
          "--function=pi:+0", "--divider=="]
        [(.divider, ";"), (.numberChars, ""), (.closing, "]"), (.function, "pi:+0"),
          (.divider, "=")] (some "2 pi") ∧
      partlyGiven.Arranged [(.divider, ";"), (.numberChars, ""), (.closing, "]"),
        (.function, "pi:+0"), (.divider, "=")] ∧
      (∀ text ∈ partlyGiven.functions, ∃ f, FunctionSymbol.ofDescription text = .ok f) ∧
      (∀ text ∈ partlyGiven.operators, ∃ s, OperatorSymbol.ofDescription text = .ok s) ∧
      ∃ o, ofArguments ["2 pi", "--divider=;", "--number-chars", "", "--closing-bracket", "]",
          "--function=pi:+0", "--divider=="] = .ok o ∧
        o.expression = some "2 pi" ∧
        o.table = SymbolTable.ofDescriptions "" ["pi:+0"] SymbolTable.standardOperators [";", "="]
          SymbolTable.standardOpenings ["]"]) ∧
    ∃ o, ofArguments ["--divider==", "--divider=", "--", "-1"] = .ok o ∧
      o.table = .error .emptyName := by
  constructor
  · have gives : Gives ["2 pi", "--divider=;", "--number-chars", "", "--closing-bracket", "]",
          "--function=pi:+0", "--divider=="]
        [(.divider, ";"), (.numberChars, ""), (.closing, "]"), (.function, "pi:+0"),
          (.divider, "=")] (some "2 pi") :=
      .expression (by decide) <| .option (@Writes.joined .divider ";") <|
        .option (@Writes.separate .numberChars "" (by decide)) <|
        .option (@Writes.separate .closing "]" (by decide)) <|
        .option (@Writes.joined .function "pi:+0") <|
        .option (@Writes.joined .divider "=") .nothing
    have arranged : partlyGiven.Arranged [(.divider, ";"), (.numberChars, ""), (.closing, "]"),
        (.function, "pi:+0"), (.divider, "=")] := by
      intro name
      cases name <;> decide
    have functions : ∀ text ∈ partlyGiven.functions,
        ∃ f, FunctionSymbol.ofDescription text = .ok f := by
      intro text mem
      obtain rfl := List.mem_singleton.mp mem
      exact ⟨.pi, rfl⟩
    have operators : ∀ text ∈ partlyGiven.operators,
        ∃ s, OperatorSymbol.ofDescription text = .ok s := by
      intro text mem
      cases mem
    exact ⟨gives, arranged, functions, operators,
      table_ofArguments gives arranged functions operators⟩
  · have gives : Gives ["--divider==", "--divider=", "--", "-1"] [(.divider, "="), (.divider, "")]
        (some "-1") :=
      .option (@Writes.joined .divider "=") <| .option (@Writes.joined .divider "") .rest
    have arranged : Given.Arranged ⟨none, [], [], ["=", ""], [], []⟩
        [(.divider, "="), (.divider, "")] := by
      intro name
      cases name <;> decide
    obtain ⟨o, parsed, -, table_eq⟩ := table_ofArguments gives arranged (by simp) (by simp)
    exact ⟨o, parsed, table_eq.trans rfl⟩

end ReversePolish.Options
