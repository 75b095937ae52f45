import Liquid.Proofs.Arrangement.Control
import Liquid.Proofs.Expr.Parse
import Liquid.Proofs.Render.Capture
import Liquid.Proofs.Render.Unplaced
import Liquid.Proofs.Template.Raw
import Liquid.Proofs.Token.Unmarked

/-!
# Variables that are Written and Read

What a template shows that writes a variable and then shows it. The template is
a source, so there are two parts to this: the source has to be cut where it is
meant to be, and then the name has to be the same one to the tag that writes and
to the output that reads.

A source is cut at the first delimiter that closes what is open, also within a
string of an expression. So a value whose source holds the delimiter of a tag
cannot be assigned, though it may well be shown by an output, which has another
delimiter. And a text that ends with half a delimiter makes a whole one with the
tag behind it.

## Main definitions

* `Template.Renders`: What a source shows.
* `Template.IsCompiled`: The names of tags that are compiled.

## Theorems

* `Template.renders_of_reads`: What a source without markers shows.
* `Template.renders_assign`, `Template.renders_capture`,
  `Template.renders_increment`: What is shown behind each way to write.
* `Template.variable_read`: A variable that was written is read.
-/

namespace Liquid

namespace Render

variable {env : Environment} {scope : Scope}

/-- An assignment of a value, and what is rendered behind it. -/
theorem renderAll_assign_of_ok {expr : Expr} {place : Place} {value : Value}
    (h : (expr.eval env scope (some place)).result = .ok value) (name : String)
    (rest : List Node) :
    let behind := renderAll env rest (scope.assign name value)
    renderAll env (.assign name expr place :: rest) scope =
      { behind with remarks := (expr.eval env scope (some place)).remarks ++ behind.remarks } := by
  intro behind
  -- The assignment and what comes behind it, as two steps.
  have hassign : renderAll env (.assign name expr place :: rest) scope =
      Render.bind (Render.bind (evaluated fun scope => expr.eval env scope (some place))
        fun value => update (·.assign name value)) (fun _ => renderAll env rest) scope :=
    rfl
  rw [hassign]
  simp only [Render.bind, evaluated, h, update, List.nil_append, List.append_nil]
  rfl

/-- Counting a variable up, and what is rendered behind it. -/
theorem renderAll_increment (env : Environment) (scope : Scope) (name : String)
    (rest : List Node) :
    renderAll env (.increment name :: rest) scope = renderAll env rest (scope.count name 1).2 :=
  rfl

end Render

namespace Template

open Arrangement (Body Item body_of_item)
open Piece (closer opener)
open Segment (Leads enclosed joined leads_nil)
open Token (Reads exists_tokens_of_cons)

/-- Whether a source compiles and then shows the text. -/
def Renders (env : Environment) (source : String) (data : Table Value) (text : String) : Prop :=
  ∃ template, (compile env source).result = .ok template ∧
    (template.output data).result = .ok text

section Renders

variable {env : Environment} {source name : String} {data : Table Value}

/-- A source shows what the nodes show that its tokens become, wherever these stand. -/
theorem renders_of_reads (htags : env.tags = Environment.standard.tags) {cs : List Char}
    {contents : List Token.Content} {text : String} (hsource : source = String.ofList cs)
    (hreads : Reads cs contents)
    (hrender : ∀ tokens : List Token, tokens.map (·.content) = contents →
      ∃ nodes, Body Environment.standard.tags false tokens nodes ∧
        (renderAll env nodes (.ofData data)).exit = .done () ∧
        String.join (renderAll env nodes (.ofData data)).chunks = text) :
    Renders env source data text := by
  -- Where the tokens are placed does not matter: only what they hold is rendered.
  rcases Token.scan_of_reads hreads env.settings.strict with ⟨tokens, remarks, hscan, hcontents⟩
  rcases hrender tokens hcontents with ⟨nodes, hbody, hexit, htext⟩
  rw [← hsource] at hscan
  have hnodes := Arrangement.ofTokens_of_body Arrangement.standard_unambiguous hbody
  rw [← htags] at hnodes
  refine ⟨⟨nodes, env⟩, compile_eq_ok_iff.mpr ⟨rfl, tokens, ⟨remarks, hscan⟩, _, hnodes⟩, ?_⟩
  simp [output, Environment.output, hexit, htext]

/-- A name has no character of a delimiter in it, and none that begins a comment. -/
theorem notMem_name {cs : List Char} (hname : Tag.isName cs = true) :
    '%' ∉ cs ∧ '\x7d' ∉ cs ∧ '#' ∉ cs := by
  have hinside := (Tag.continuesName_of_isName hname).2
  exact ⟨fun hmem => absurd (hinside _ hmem) (by decide),
    fun hmem => absurd (hinside _ hmem) (by decide),
    fun hmem => absurd (hinside _ hmem) (by decide)⟩

/-- A name has no blank in it. -/
theorem isBlank_of_mem_name {cs : List Char} (hname : Tag.isName cs = true) :
    ∀ c ∈ cs, Text.isBlank c = false := fun c hc =>
  (Lexeme.plain_of_continuesName ((Tag.continuesName_of_isName hname).2 c hc)).2

/-- A name is left alone by stripping. -/
theorem strip_name {cs : List Char} (hname : Tag.isName cs = true) : Text.strip cs = cs :=
  Text.strip_eq_self (isBlank_of_mem_name hname)

/-- An output of a name. -/
theorem reads_variable (hname : Tag.isName name.toList = true) :
    Reads (enclosed true ⟨false, false⟩ name.toList) [.output name] := by
  have hclosed : ¬closer true <:+: name.toList :=
    fun hwithin => (notMem_name hname).2.1 (hwithin.subset List.mem_cons_self)
  have hreads := Token.reads_output leads_nil hclosed
  rwa [strip_name hname, String.ofList_toList] at hreads

/-- The names of tags that are compiled: the scanner itself reads the tags of the other two. -/
def IsCompiled (word : List Char) : Prop :=
  Tag.isName word = true ∧ word ≠ "raw".toList ∧ word ≠ "comment".toList

/-- The word of a compiled tag can be printed. -/
theorem proper_of_isCompiled {word : List Char} (hword : IsCompiled word) :
    (Segment.tag ⟨false, false⟩ word []).Proper := by
  rcases hword with ⟨hname, hraw, hcomment⟩
  rcases notMem_name hname with ⟨hpercent, _, hnote⟩
  refine ⟨(Tag.continuesName_of_isName hname).1, isBlank_of_mem_name hname, hraw, hcomment,
    fun hhead => hnote (List.mem_of_head? hhead), rfl, ?_⟩
  exact fun hwithin => hpercent (hwithin.subset List.mem_cons_self)

/-- A tag with arguments that do not hold the delimiter of a tag. -/
theorem reads_tag_args {word args : List Char} (hword : IsCompiled word) (hne : args ≠ [])
    (hclosed : ¬['%', '\x7d'] <:+: args) :
    Reads (enclosed false ⟨false, false⟩ (word ++ ' ' :: args))
      [.tag (String.ofList word) (String.ofList (Text.strip args))] := by
  have hjoined : joined word args = word ++ ' ' :: args := if_neg (by simpa using hne)
  have hclosed' : ¬closer false <:+: joined word args := by
    have hbefore : '%' ∉ word ++ [' '] := by simp [(notMem_name hword.1).1]
    have hnone := Text.not_infix_append hbefore hclosed
    rwa [List.append_assoc, List.singleton_append, ← hjoined] at hnone
  have hreads := Token.reads_tag leads_nil (proper_of_isCompiled hword) hclosed'
  rwa [hjoined] at hreads

/-- A tag with a name as its arguments. -/
theorem reads_tag_name (hname : Tag.isName name.toList = true) {word : List Char}
    (hword : IsCompiled word) :
    Reads (enclosed false ⟨false, false⟩ (word ++ ' ' :: name.toList))
      [.tag (String.ofList word) name] := by
  have hclosed : ¬['%', '\x7d'] <:+: name.toList :=
    fun hwithin => (notMem_name hname).1 (hwithin.subset List.mem_cons_self)
  have hreads := reads_tag_args hword (Tag.continuesName_of_isName hname).1 hclosed
  rwa [strip_name hname, String.ofList_toList] at hreads

/-- An assignment to a name. -/
theorem reads_assignment (hname : Tag.isName name.toList = true) {cs : List Char}
    (hclosed : ¬['%', '\x7d'] <:+: cs) :
    Reads (enclosed false ⟨false, false⟩
        ("assign".toList ++ ' ' :: (name.toList ++ (" = ".toList ++ cs))))
      [.tag "assign" (String.ofList (Text.strip (name.toList ++ (" = ".toList ++ cs))))] := by
  have hbefore : '%' ∉ name.toList ++ " = ".toList := by simp [(notMem_name hname).1]
  have hnone := Text.not_infix_append hbefore hclosed
  rw [List.append_assoc] at hnone
  exact reads_tag_args ⟨rfl, by decide, by decide⟩ (by simp) hnone

/-- What an assignment is read as: the name, and the value without blanks on either side. -/
theorem assignment?_strip (hname : Tag.isName name.toList = true) {cs : List Char}
    (hne : Text.strip cs ≠ []) :
    Tag.assignment? (Text.strip (name.toList ++ (" = ".toList ++ cs))) =
      some (name.toList, Text.strip cs) := by
  rcases Text.exists_strip cs with ⟨before, after, hbefore, hafter, hcs⟩
  have hkept := Text.strip_strip cs
  generalize Text.strip cs = value at hne hcs hkept
  subst hcs
  -- Only the blanks behind the value are at an end of the arguments.
  have hstrip : Text.strip (name.toList ++ (" = ".toList ++ (before ++ (value ++ after)))) =
      name.toList ++ (" = ".toList ++ (before ++ value)) := by
    have hafter' := Text.strip_append_blank [] after
      (name.toList ++ (" = ".toList ++ (before ++ value))) nofun hafter
    simp only [List.nil_append, List.append_assoc] at hafter' ⊢
    rw [hafter', Text.strip, Text.stripLeft_append
      (Text.stripLeft_eq_self_of_strip (strip_name hname)) (Tag.continuesName_of_isName hname).1]
    have hright := Text.stripRight_append (Text.stripRight_eq_self_of_strip hkept) hne
      (name.toList ++ (" = ".toList ++ before))
    simpa only [List.append_assoc] using hright
  have hvalue : Text.stripLeft (before ++ value) = value := by
    rw [Text.stripLeft_append_blank hbefore, Text.stripLeft_eq_self_of_strip hkept]
  rw [hstrip, Tag.assignment?_of_isName hname (by rwa [hvalue]), hvalue]

/-- An assignment with a name and a value that are read as such. -/
theorem compile_assign (hname : Tag.isName name.toList = true) {cs : List Char} {expr : Expr}
    (hparse : Expr.parseChain (String.ofList (Text.strip cs)) = .ok expr) (offset : Nat)
    (place : Place) :
    let args := String.ofList (Text.strip (name.toList ++ (" = ".toList ++ cs)))
    Tag.assignTag.compile false ⟨"assign", args, offset, place, [], []⟩ =
      .ok (.assign name expr place) := by
  intro args
  -- An expression that parses is not empty, so the stripped arguments end inside of it.
  have hne : Text.strip cs ≠ [] := by
    intro hnil
    have hempty := Expr.parse_of_parseChain hparse
    rw [hnil, String.ofList_nil, Arrangement.parse_empty] at hempty
    cases hempty
  have hparts := assignment?_strip hname hne
  rw [← String.toList_ofList (l := Text.strip (name.toList ++ _))] at hparts
  have hassign := @Tag.compile_assign _ false ⟨"assign", _, offset, place, [], []⟩ _ _ hparts hparse
  rwa [String.ofList_toList] at hassign

/-- A tag that writes a variable, and an output of the variable. -/
theorem renders_pair (htags : env.tags = Environment.standard.tags)
    (hname : Tag.isName name.toList = true) (hkeyword : name ∉ Lexeme.keywords) {cs : List Char}
    {word args text : String} {node : Place → Node}
    (hsource : source = String.ofList (cs ++ enclosed true ⟨false, false⟩ name.toList))
    (hreads : Reads cs [.tag word args])
    (hitem : ∀ offset place,
      Item Environment.standard.tags false [⟨.tag word args, offset, place⟩] (node place))
    (hshown : ∀ place place',
      let outcome := renderAll env [node place, .output (.path name []) place'] (.ofData data)
      outcome.exit = .done () ∧ String.join outcome.chunks = text) :
    Renders env source data text := by
  refine renders_of_reads htags hsource (hreads.append (reads_variable hname)) fun tokens h => ?_
  rw [List.singleton_append] at h
  -- Two tokens: the tag that writes the variable, and the output that reads it.
  rcases exists_tokens_of_cons h with ⟨offset, place, _, rfl, hrest⟩
  rcases exists_tokens_of_cons hrest with ⟨offset', place', _, rfl, hnil⟩
  cases List.map_eq_nil_iff.mp hnil
  have houtput : Item Environment.standard.tags false [⟨.output name, offset', place'⟩]
      (.output (.path name []) place') :=
    .output (Expr.parse_of_isName hname hkeyword)
  exact ⟨_, .cons (hitem offset place) (body_of_item houtput), hshown place place'⟩

/-- An assigned value is shown as it is. -/
theorem renders_assign (htags : env.tags = Environment.standard.tags)
    (hname : Tag.isName name.toList = true) (hkeyword : name ∉ Lexeme.keywords) {expr : Expr}
    {value : Value}
    (hparse : Expr.parseChain (String.ofList (Text.strip source.toList)) = .ok expr)
    (heval : (expr.eval env (.ofData data) none).result = .ok value)
    (hclosed : ¬['%', '\x7d'] <:+: source.toList) :
    Renders env
      ("\x7b% assign " ++ name ++ " = " ++ source ++ " %\x7d\x7b\x7b " ++ name ++ " \x7d\x7d")
      data value.display := by
  refine renders_pair htags hname hkeyword ?_ (reads_assignment hname hclosed)
    (fun offset place => .alone rfl rfl (compile_assign hname hparse offset place))
    fun place place' => ?_
  · rw [← String.toList_inj]
    simp [enclosed, Segment.inner, Segment.hyphen, opener, closer]
  -- What was assigned is what the output finds.
  · have hbehind := @Render.renderAll_assigned env (.ofData data) rfl name value place'
    have hshown := Render.renderAll_assign_of_ok
      ((@Expr.eval_eq_ok_iff _ _ (some place) _ _).mpr heval) name [.output (.path name []) place']
    rw [hbehind] at hshown
    simp [hshown]

/-- A variable that is counted up for the first time is shown as one. -/
theorem renders_increment (htags : env.tags = Environment.standard.tags)
    (hname : Tag.isName name.toList = true) (hkeyword : name ∉ Lexeme.keywords) :
    Renders env ("\x7b% increment " ++ name ++ " %\x7d\x7b\x7b " ++ name ++ " \x7d\x7d") data
      "1" := by
  have htag := @reads_tag_name _ hname "increment".toList ⟨rfl, by decide, by decide⟩
  have hcompile (offset : Nat) (place : Place) : Tag.incrementTag.compile false
      ⟨"increment", name, offset, place, [], []⟩ = .ok (.increment name) :=
    map_eq_ok_iff.mpr ⟨name, Tag.nameOf_of_isName hname, rfl⟩
  refine renders_pair htags hname hkeyword ?_ htag
    (fun offset place => .alone rfl rfl (hcompile offset place)) fun place place' => ?_
  · rw [← String.toList_inj]
    simp [enclosed, Segment.inner, Segment.hyphen, opener, closer]
  -- The counter is found by its name, as no variable hides it.
  · have heval : (Expr.path name []).eval env (Scope.count (.ofData data) name 1).2 (some place') =
        .ok (.integer 1) :=
      Expr.eval_variable (@Scope.lookup_count_self (.ofData data) rfl name 1)
    rw [Render.renderAll_increment, Render.renderAll_output_of_ok (congrArg (·.result) heval)]
    exact ⟨rfl, rfl⟩

/-- An output shows the value that its source stands for. -/
theorem renders_output (htags : env.tags = Environment.standard.tags) {expr : Expr} {value : Value}
    (hparse : Expr.parseChain (String.ofList (Text.strip source.toList)) = .ok expr)
    (heval : (expr.eval env (.ofData data) none).result = .ok value)
    (hclosed : ¬['\x7d', '\x7d'] <:+: source.toList) :
    Renders env ("\x7b\x7b " ++ source ++ " \x7d\x7d") data value.display := by
  refine renders_of_reads htags ?_ (Token.reads_output leads_nil hclosed) fun tokens htokens => ?_
  · rw [← String.toList_inj]
    simp [enclosed, Segment.inner, Segment.hyphen, opener, closer]
  rcases exists_tokens_of_cons htokens with ⟨offset, place, _, rfl, hnil⟩
  cases List.map_eq_nil_iff.mp hnil
  -- A chain is an expression, so an output takes it.
  have houtput : Item Environment.standard.tags false
      [⟨.output (String.ofList (Text.strip source.toList)), offset, place⟩] (.output expr place) :=
    .output (Expr.parse_of_parseChain hparse)
  have hshown := Render.renderAll_output_of_ok
    ((@Expr.eval_eq_ok_iff _ _ (some place) _ _).mpr heval)
  refine ⟨_, body_of_item houtput, ?_, ?_⟩
  · rw [hshown]
  · rw [hshown]
    simp

/-- A captured text is shown as it is. -/
theorem renders_capture (htags : env.tags = Environment.standard.tags)
    (hname : Tag.isName name.toList = true) (hkeyword : name ∉ Lexeme.keywords)
    (hleads : Leads source.toList) :
    Renders env
      ("\x7b% capture " ++ name ++ " %\x7d" ++ source ++ "\x7b% endcapture %\x7d\x7b\x7b " ++
        name ++ " \x7d\x7d") data source := by
  have hopening := @reads_tag_name _ hname "capture".toList ⟨rfl, by decide, by decide⟩
  have hproper := @proper_of_isCompiled "endcapture".toList ⟨rfl, by decide, by decide⟩
  have hclosing := Token.reads_tag hleads hproper hproper.2.2.2.2.2.2
  have hreads := hopening.append (hclosing.append (reads_variable hname))
  refine renders_of_reads htags ?_ hreads fun tokens htokens => ?_
  · rw [← String.toList_inj]
    simp [joined, enclosed, Segment.inner, Segment.hyphen, opener, closer]
  rw [List.singleton_append] at htokens
  rcases exists_tokens_of_cons htokens with ⟨offset, place, behind, rfl, hbehind⟩
  rcases List.map_eq_append_iff.mp hbehind with ⟨inside, last, rfl, hinside, hlast⟩
  rcases exists_tokens_of_cons hlast with ⟨shown, shownPlace, _, rfl, hnil⟩
  cases List.map_eq_nil_iff.mp hnil
  rcases List.map_eq_append_iff.mp hinside with ⟨inner, closing, rfl, hinner, hclose⟩
  rcases exists_tokens_of_cons hclose with ⟨closed, closedPlace, _, rfl, hnil⟩
  cases List.map_eq_nil_iff.mp hnil
  -- What the tag holds is the text, or no token if that is empty.
  rcases Token.shows_ofText source.toList 0 .start with ⟨texts, htexts, hjoin⟩
  rcases Arrangement.ofTokens_texts Environment.standard.tags (hinner.trans htexts) with
    ⟨remarks, hbody⟩
  rcases Arrangement.ofTokens_capturing hname hkeyword (String.ofList (Text.strip []))
    (offset, place) (closed, closedPlace) (shown, shownPlace) hbody with ⟨remarks', hnodes⟩
  have hexit : (renderAll env (texts.map .text) (.ofData data)).exit = .done () := by
    rw [renderAll_texts]
  have hshown := Render.renderAll_capture_of_done hexit name
    [.output (.path name []) shownPlace]
  simp only [renderAll_texts] at hshown
  rw [@Render.renderAll_assigned env (.ofData data) rfl] at hshown
  refine ⟨_, Arrangement.body_of_ofTokens hnodes, ?_, ?_⟩
  · exact (congrArg (·.exit) hshown).trans rfl
  · refine (congrArg (fun outcome => String.join outcome.chunks) hshown).trans ?_
    simp [Value.display, hjoin]

end Renders

/-- Every variable that can be written can be read, unless its name is a keyword of expressions.
What an expression without operators stands for is shown by an output of the variable that it is
assigned to, as it is by an output of the expression itself, where either source can hold the
expression. A captured text is shown as it is, unless it makes a delimiter with what it stands next
to. And a variable that is counted up is shown as one. -/
theorem variable_read (settings : Settings) (filters : List Filter) (operators : List Operator)
    (name : String) (haccepted : Tag.Accepted name) (hkeyword : name ∉ Lexeme.keywords) :
    let env := (Environment.create settings ⟨filters, [], operators⟩).1
    (∀ source expr data value,
      Expr.parseChain (String.ofList (Text.strip source.toList)) = .ok expr →
      (expr.eval env (.ofData data) none).result = .ok value →
      (¬['%', '\x7d'] <:+: source.toList →
        Renders env
          ("\x7b% assign " ++ name ++ " = " ++ source ++ " %\x7d\x7b\x7b " ++ name ++ " \x7d\x7d")
          data value.display) ∧
        (¬['\x7d', '\x7d'] <:+: source.toList →
          Renders env ("\x7b\x7b " ++ source ++ " \x7d\x7d") data value.display)) ∧
      (∀ text data, Leads text.toList →
        Renders env
          ("\x7b% capture " ++ name ++ " %\x7d" ++ text ++ "\x7b% endcapture %\x7d\x7b\x7b " ++
            name ++ " \x7d\x7d") data text) ∧
      ∀ data, Renders env
        ("\x7b% increment " ++ name ++ " %\x7d\x7b\x7b " ++ name ++ " \x7d\x7d") data "1" := by
  intro env
  -- Extra filters and operators leave the tags as they are.
  have htags : env.tags = Environment.standard.tags := rfl
  have hname := Tag.accepted_iff.mp haccepted
  refine ⟨fun source expr data value hparse heval => ⟨fun hclosed => ?_, fun hclosed => ?_⟩,
    fun text data hleads => ?_, fun data => ?_⟩
  · exact renders_assign htags hname hkeyword hparse heval hclosed
  · exact renders_output htags hparse heval hclosed
  · exact renders_capture htags hname hkeyword hleads
  · exact renders_increment htags hname hkeyword

/-- A name with a hyphen, a value with a filter, and a text that only looks like a tag. -/
theorem variable_read_hyphen :
    let name := "n-1"
    let source := " a | append: \"%\""
    let text := "%\x7d \x7b x %\x7d\x7d"
    Tag.Accepted name ∧ name ∉ Lexeme.keywords ∧
      Renders Environment.standard
        "\x7b% assign n-1 =  a | append: \"%\" %\x7d\x7b\x7b n-1 \x7d\x7d" [("a", .string "b")]
        "b%" ∧
      Renders Environment.standard ("\x7b\x7b " ++ source ++ " \x7d\x7d") [("a", .string "b")]
        "b%" ∧
      Leads text.toList ∧
      Renders Environment.standard
        ("\x7b% capture n-1 %\x7d" ++ text ++ "\x7b% endcapture %\x7d\x7b\x7b n-1 \x7d\x7d") []
        text ∧
      Renders Environment.standard "\x7b% increment n-1 %\x7d\x7b\x7b n-1 \x7d\x7d" [] "1" := by
  intro name source text
  have haccepted : Tag.Accepted name := Tag.accepted_iff.mpr (by decide)
  have hkeyword : name ∉ Lexeme.keywords := by decide
  let expr : Expr := .filtered (.path "a" []) [.call "append" [.literal (.string "%")] []]
  -- The expression by its lexemes, so that the parser is run on them alone.
  have hparse : Expr.parseChain (String.ofList (Text.strip source.toList)) = .ok expr := by
    have hstrip : String.ofList (Text.strip source.toList) = "a | append: \"%\"" := by
      decide +kernel
    have hbody : Lexeme.body "a | append: \"%\"" =
        .ok [⟨.identifier, "a", 0⟩, ⟨.symbol, "|", 2⟩, ⟨.identifier, "append", 4⟩,
          ⟨.symbol, ":", 10⟩, ⟨.string, "%", 12⟩] := by
      decide +kernel
    rw [hstrip, Expr.parseChain, Expr.parseWith, hbody]
    rfl
  have heval : (expr.eval Environment.standard (.ofData [("a", .string "b")]) none).result =
      .ok (.string "b%") := by
    rfl
  have hleads : Leads text.toList := ⟨by decide +kernel, by decide +kernel, by decide⟩
  rcases variable_read {} [] [] name haccepted hkeyword with ⟨hvalue, hcapture, hincrement⟩
  rcases hvalue source expr _ _ hparse heval with ⟨hassign, houtput⟩
  exact ⟨haccepted, hkeyword, hassign (by decide +kernel), houtput (by decide +kernel), hleads,
    hcapture text [] hleads, hincrement []⟩

/-- A string is cut off at the delimiter of the tag that it stands in, a comparison is no value to
assign, and a brace makes a delimiter with the one behind it. A keyword is accepted as a name, but
not read as one. -/
theorem variable_unread :
    let shown (source : String) : Option String := do
      let template ← (compile Environment.standard source).result.toOption
      (template.output []).result.toOption
    Tag.Accepted "x" ∧ shown "\x7b\x7b \"%\x7d\" \x7d\x7d" = some "%\x7d" ∧
      shown "\x7b% assign x = \"%\x7d\" %\x7d\x7b\x7b x \x7d\x7d" = none ∧
      shown "\x7b\x7b 1 == 1 \x7d\x7d" = some "true" ∧
      shown "\x7b% assign x = 1 == 1 %\x7d\x7b\x7b x \x7d\x7d" = none ∧
      shown "\x7b% capture x %\x7d\x7b\x7b% endcapture %\x7d\x7b\x7b x \x7d\x7d" = none ∧
      Tag.Accepted "true" ∧ shown "\x7b\x7b 1 \x7d\x7d" = some "1" ∧
      shown "\x7b% assign true = 1 %\x7d\x7b\x7b true \x7d\x7d" = some "true" := by
  intro shown
  have haccepted : Tag.Accepted "x" := Tag.accepted_iff.mpr rfl
  have hkeyword : Tag.Accepted "true" := Tag.accepted_iff.mpr rfl
  exact ⟨haccepted, by decide +kernel, by decide +kernel, by decide +kernel, by decide +kernel,
    by decide +kernel, hkeyword, by decide +kernel, by decide +kernel⟩

end Template

end Liquid
