import Mqss.Segments
import Mathlib.Data.List.Chain

/-!
The compiler of the workflow example strips the gate definitions from a lowered
circuit, line by line. A definition may close on the line that opens it or on a
later one; the loop looks for the closing brace on later lines only, and passes
over every line that looks like an opening one.
-/

namespace Mqss.QrmWorkflow
open Mqss.Segments

/-! ### The loop over the lines -/

/-- The line contains both `gate ` and an opening brace. -/
def Opens (line : List Char) : Prop := "gate ".toList <:+: line ∧ '{' ∈ line

instance (line : List Char) : Decidable (Opens line) := inferInstanceAs (Decidable (_ ∧ _))

/-- The flag of the loop, and the characters written so far. -/
structure Strip where
  inGateBlock : Bool := false
  result : List Char := []

/-- One round of the loop. -/
def Strip.step (s : Strip) (line : List Char) : Strip :=
  if Opens line then { s with inGateBlock := true }
  else if s.inGateBlock then
    if '}' ∈ line then { s with inGateBlock := false } else s
  else { s with result := s.result ++ (line ++ ['\n']) }

def stripSpuriousGateDefs (qasm : String) : String :=
  String.ofList ((cut '\n' qasm.toList).foldl Strip.step {}).result

/-! ### Texts and their definitions -/

/-- The lines of a gate definition before its last one, and its last one: an opening line,
    and a first closing brace after the opening one, with only blanks behind it. -/
inductive Definition : List (List Char) → List Char → Prop
  | oneLine {start body blanks} (opens : Opens (start ++ '{' :: body ++ '}' :: blanks)) (open_ : '}' ∉ body)
      (blank : ∀ c ∈ blanks, c.isWhitespace = true) : Definition [] (start ++ '{' :: body ++ '}' :: blanks)
  | manyLines {start body inner closing blanks} (opens : Opens (start ++ '{' :: body)) (open_ : '}' ∉ body)
      (within : ∀ line ∈ inner, '}' ∉ line) (first : '}' ∉ closing) (blank : ∀ c ∈ blanks, c.isWhitespace = true) :
      Definition ((start ++ '{' :: body) :: inner) (closing ++ '}' :: blanks)

/-- A part of a text: a line outside all definitions, or a definition. -/
inductive Block
  | statement (line : List Char) (outside : ¬ Opens line)
  | definition (init : List (List Char)) (last : List Char) (closed : Definition init last)

namespace Block

def lines : Block → List (List Char)
  | statement line _ => [line]
  | definition init last _ => init ++ [last]

/-- The lines of the part that belong to no definition. -/
def outside : Block → List (List Char)
  | statement line _ => [line]
  | definition _ _ _ => []

def IsDefinition : Block → Prop
  | statement _ _ => False
  | definition _ _ _ => True

/-- The last line of a definition contains both `gate ` and an opening brace, as it does
    when the definition has one line only. -/
def EndsOpen : Block → Prop
  | statement _ _ => False
  | definition _ last _ => Opens last

end Block

/-- A text that consists of statements and definitions. -/
structure Layout (qasm : String) where
  blocks : List Block
  complete : blocks.flatMap Block.lines = cut '\n' qasm.toList

/-- The lines of a text that belong to no definition, each followed by a newline. -/
def Layout.program {qasm : String} (layout : Layout qasm) : String :=
  String.ofList ((layout.blocks.flatMap Block.outside).flatMap fun line => line ++ ['\n'])

/-- Every definition whose last line looks like an opening one is followed by another
    definition, or by nothing. -/
def Layout.EndsSeen {qasm : String} (layout : Layout qasm) : Prop :=
  layout.blocks.IsChain fun block next => block.EndsOpen → next.IsDefinition

/-! ### A text has one program -/

theorem Definition.opening {init : List (List Char)} {last : List Char} (definition : Definition init last) :
    ∃ line later, Opens line ∧ init ++ [last] = line :: later := by
  cases definition with
  | oneLine opens => exact ⟨_, [], opens, rfl⟩
  | manyLines opens => exact ⟨_, _, opens, rfl⟩

/-- A line on which a definition ends is none that leaves it open. -/
theorem closed_ne_open {start body blanks start' body' : List Char} (blank : ∀ c ∈ blanks, c.isWhitespace = true)
    (open_ : '}' ∉ body') : start ++ '{' :: body ++ '}' :: blanks ≠ start' ++ '{' :: body' := by
  intro same
  rcases List.append_eq_append_iff.mp same with ⟨middle, _, behind⟩ | ⟨middle, _, behind⟩
  · -- the later brace opens behind the closing one, among the blanks
    have brace : '{' ∈ '}' :: blanks := by
      rw [behind]
      exact List.mem_append_right _ List.mem_cons_self
    have among : '{' ∈ blanks := by simpa using brace
    exact absurd (blank _ among) (by decide)
  · -- the closing brace stands behind the one that is left open
    have brace : '}' ∈ '{' :: body' := by
      rw [behind]
      exact List.mem_append_right _ List.mem_cons_self
    exact open_ (by simpa using brace)

/-- The first line with a closing brace. -/
theorem first_unique {inner inner' : List (List Char)} {closing closing' : List Char}
    {rest rest' : List (List Char)} (within : ∀ line ∈ inner, '}' ∉ line) (within' : ∀ line ∈ inner', '}' ∉ line)
    (closes : '}' ∈ closing) (closes' : '}' ∈ closing') (same : inner ++ closing :: rest = inner' ++ closing' :: rest') :
    rest = rest' := by
  induction inner generalizing inner' with
  | nil =>
    cases inner' with
    | nil => exact (List.cons.inj same).2
    | cons line inner' =>
      have first := (List.cons.inj same).1
      exact absurd (first ▸ closes) (within' line List.mem_cons_self)
  | cons line inner ih =>
    cases inner' with
    | nil =>
      have first := (List.cons.inj same).1
      exact absurd (first.symm ▸ closes') (within line List.mem_cons_self)
    | cons line' inner' =>
      exact ih (fun other member => within other (List.mem_cons_of_mem _ member))
        (fun other member => within' other (List.mem_cons_of_mem _ member)) (List.cons.inj same).2

theorem Definition.unique {init init' : List (List Char)} {last last' : List Char} {rest rest' : List (List Char)}
    (definition : Definition init last) (other : Definition init' last')
    (same : init ++ [last] ++ rest = init' ++ [last'] ++ rest') : rest = rest' := by
  cases definition with
  | oneLine _ _ blank =>
    cases other with
    | oneLine _ _ _ => exact (List.cons.inj same).2
    | manyLines _ open_ _ _ _ => exact absurd (List.cons.inj same).1 (closed_ne_open blank open_)
  | manyLines _ open_ within _ _ =>
    cases other with
    | oneLine _ _ blank => exact absurd (List.cons.inj same).1.symm (closed_ne_open blank open_)
    | manyLines _ _ within' _ _ =>
      simp only [List.cons_append, List.append_assoc, List.cons.injEq] at same
      exact first_unique within within' (by simp) (by simp) same.2

theorem outside_unique {blocks blocks' : List Block}
    (same : blocks.flatMap Block.lines = blocks'.flatMap Block.lines) :
    blocks.flatMap Block.outside = blocks'.flatMap Block.outside := by
  induction blocks generalizing blocks' with
  | nil =>
    cases blocks' with
    | nil => rfl
    | cons block' blocks' => cases block' <;> simp [Block.lines] at same
  | cons block blocks ih =>
    cases blocks' with
    | nil => cases block <;> simp [Block.lines] at same
    | cons block' blocks' =>
      rw [List.flatMap_cons, List.flatMap_cons] at same ⊢
      cases block with
      | statement line outside =>
        cases block' with
        | statement line' outside' =>
          obtain ⟨first, later⟩ := List.cons.inj same
          simp only [Block.outside, first, ih later]
        | definition init last closed =>
          obtain ⟨opening, later, opens, lines⟩ := closed.opening
          simp only [Block.lines, lines] at same
          exact absurd ((List.cons.inj same).1 ▸ opens) outside
      | definition init last closed =>
        cases block' with
        | statement line' outside' =>
          obtain ⟨opening, later, opens, lines⟩ := closed.opening
          simp only [Block.lines, lines] at same
          exact absurd ((List.cons.inj same).1 ▸ opens) outside'
        | definition init' last' closed' => exact ih (closed.unique closed' same)

/-- However a text is read, the lines that belong to no definition are the same. -/
theorem Layout.program_unique {qasm : String} (layout other : Layout qasm) : layout.program = other.program := by
  rw [program, program, outside_unique (layout.complete.trans other.complete.symm)]

/-! ### What the loop keeps -/

/-- The lines that the loop keeps. -/
def kept : Bool → List (List Char) → List (List Char)
  | _, [] => []
  | inGateBlock, line :: rest =>
    if Opens line then kept true rest
    else if inGateBlock then kept (decide ('}' ∉ line)) rest
    else line :: kept false rest

theorem kept_opens {line : List Char} (opens : Opens line) (inGateBlock : Bool) (rest : List (List Char)) :
    kept inGateBlock (line :: rest) = kept true rest := by
  rw [kept, if_pos opens]

theorem kept_inside {line : List Char} (outside : ¬ Opens line) (rest : List (List Char)) :
    kept true (line :: rest) = kept (decide ('}' ∉ line)) rest := by
  rw [kept, if_neg outside, if_pos rfl]

theorem kept_outside {line : List Char} (outside : ¬ Opens line) (rest : List (List Char)) :
    kept false (line :: rest) = line :: kept false rest := by
  simp [kept, outside]

theorem foldl_step (lines : List (List Char)) (s : Strip) : (lines.foldl Strip.step s).result =
    s.result ++ (kept s.inGateBlock lines).flatMap fun line => line ++ ['\n'] := by
  induction lines generalizing s with
  | nil => simp [kept]
  | cons line rest ih =>
    rw [List.foldl_cons, ih, Strip.step]
    by_cases opens : Opens line
    · rw [if_pos opens, kept_opens opens]
    · rw [if_neg opens]
      cases flag : s.inGateBlock with
      | false => simp [kept_outside opens]
      | true =>
        rw [kept_inside opens, if_pos rfl]
        by_cases closes : '}' ∈ line
        · simp [closes]
        · simp [closes, flag]

/-- The inner lines of a definition are passed over. -/
theorem kept_inner {inner : List (List Char)} (within : ∀ line ∈ inner, '}' ∉ line) (rest : List (List Char)) :
    kept true (inner ++ rest) = kept true rest := by
  induction inner with
  | nil => rfl
  | cons line inner ih =>
    have later := ih fun other member => within other (List.mem_cons_of_mem _ member)
    rw [List.cons_append]
    by_cases opens : Opens line
    · rw [kept_opens opens, later]
    · rw [kept_inside opens, decide_eq_true (within line List.mem_cons_self), later]

/-- Behind a definition the loop believes itself inside it when its last line looks like
    an opening one. -/
theorem kept_definition {init : List (List Char)} {last : List Char} (definition : Definition init last)
    (inGateBlock : Bool) (rest : List (List Char)) :
    kept inGateBlock (init ++ [last] ++ rest) = kept (decide (Opens last)) rest := by
  cases definition with
  | oneLine opens _ _ =>
    rw [List.nil_append, List.singleton_append, kept_opens opens, decide_eq_true opens]
  | @manyLines start body inner closing blanks opens _ within _ _ =>
    rw [List.cons_append, List.cons_append, kept_opens opens, List.append_assoc, kept_inner within,
      List.singleton_append]
    by_cases again : Opens (closing ++ '}' :: blanks)
    · rw [kept_opens again, decide_eq_true again]
    · rw [kept_inside again, decide_eq_false again]
      simp

theorem kept_length (blocks : List Block) (inGateBlock : Bool) :
    (kept inGateBlock (blocks.flatMap Block.lines)).length ≤ (blocks.flatMap Block.outside).length := by
  induction blocks generalizing inGateBlock with
  | nil => simp [kept]
  | cons block blocks ih =>
    cases block with
    | statement line outside =>
      cases inGateBlock with
      | false =>
        have rest := ih false
        simp only [List.flatMap_cons, Block.lines, Block.outside, List.singleton_append, kept_outside outside]
        exact Nat.succ_le_succ rest
      | true =>
        have rest := ih (decide ('}' ∉ line))
        simp only [List.flatMap_cons, Block.lines, Block.outside, List.singleton_append, kept_inside outside]
        exact Nat.le_succ_of_le rest
    | definition init last closed =>
      simp only [List.flatMap_cons, Block.lines, Block.outside, List.nil_append, kept_definition closed]
      exact ih _

theorem kept_subset (inGateBlock : Bool) (lines : List (List Char)) : kept inGateBlock lines ⊆ lines := by
  induction lines generalizing inGateBlock with
  | nil => simp [kept]
  | cons line rest ih =>
    rw [kept]
    split_ifs
    · exact List.subset_cons_of_subset _ (ih _)
    · exact List.subset_cons_of_subset _ (ih _)
    · exact List.cons_subset_cons line (ih _)

theorem outside_subset (blocks : List Block) : blocks.flatMap Block.outside ⊆ blocks.flatMap Block.lines := by
  intro line member
  obtain ⟨block, inside, outside⟩ := List.mem_flatMap.mp member
  refine List.mem_flatMap.mpr ⟨block, inside, ?_⟩
  cases block with
  | statement other _ => exact outside
  | definition init last closed => cases outside

/-- The loop keeps all lines outside definitions when the ends of the definitions are seen,
    and, started inside one, when moreover no statement comes first. -/
theorem kept_iff (blocks : List Block) (inGateBlock : Bool) :
    kept inGateBlock (blocks.flatMap Block.lines) = blocks.flatMap Block.outside ↔
      (inGateBlock = true → ∀ next ∈ blocks.head?, next.IsDefinition) ∧
        blocks.IsChain fun block next => block.EndsOpen → next.IsDefinition := by
  induction blocks generalizing inGateBlock with
  | nil => simp [kept]
  | cons block blocks ih =>
    rw [List.isChain_cons]
    cases block with
    | statement line outside =>
      simp only [List.flatMap_cons, Block.lines, Block.outside, List.singleton_append]
      cases inGateBlock with
      | false =>
        rw [kept_outside outside, List.cons.injEq, ih]
        simp [Block.EndsOpen]
      | true =>
        rw [kept_inside outside]
        refine iff_of_false ?_ ?_
        · intro same
          have fewer := kept_length blocks (decide ('}' ∉ line))
          rw [same, List.length_cons] at fewer
          omega
        · rintro ⟨first, _⟩
          exact first rfl _ rfl
    | definition init last closed =>
      simp only [List.flatMap_cons, Block.lines, Block.outside, List.nil_append, kept_definition closed, ih]
      rw [decide_eq_true_iff]
      constructor
      · rintro ⟨first, chain⟩
        refine ⟨?_, fun next member opens => first opens next member, chain⟩
        intro _ next same
        obtain rfl := Option.some.inj same
        trivial
      · rintro ⟨_, first, chain⟩
        exact ⟨fun opens next member => first next member opens, chain⟩

/-- What is written is the program when the lines kept are the lines outside definitions. -/
theorem stripped_iff_kept {qasm : String} (layout : Layout qasm) : stripSpuriousGateDefs qasm = layout.program ↔
    kept false (layout.blocks.flatMap Block.lines) = layout.blocks.flatMap Block.outside := by
  have plain : ∀ line ∈ layout.blocks.flatMap Block.lines, '\n' ∉ line := by
    intro line member
    rw [layout.complete] at member
    exact plain_of_mem_cut member
  have plainKept : ∀ line ∈ kept false (layout.blocks.flatMap Block.lines), '\n' ∉ line :=
    fun line member => plain line (kept_subset _ _ member)
  have plainOutside : ∀ line ∈ layout.blocks.flatMap Block.outside, '\n' ∉ line :=
    fun line member => plain line (outside_subset _ member)
  rw [stripSpuriousGateDefs, Layout.program, String.ofList_inj, foldl_step, layout.complete]
  rw [layout.complete] at plainKept
  constructor
  · intro written
    have lines := congrArg (cut '\n') written
    simpa only [List.nil_append, cut_terminated plainKept, cut_terminated plainOutside] using lines
  · intro same
    exact congrArg (List.flatMap fun line => line ++ ['\n']) same

/-- The loop returns the program without its definitions exactly when the end of every
    definition that a statement follows is seen. -/
theorem stripped_is_program_iff (qasm : String) (layout : Layout qasm) :
    stripSpuriousGateDefs qasm = layout.program ↔ layout.EndsSeen := by
  rw [stripped_iff_kept, kept_iff, Layout.EndsSeen]
  constructor
  · intro whole
    exact whole.2
  · intro seen
    exact ⟨by simp, seen⟩

/-- A definition on one line, and a call of the gate. -/
def oneLineGate : Layout "gate g a { x a; }\ng q[0];\n" where
  blocks := [
    .definition [] _ (@Definition.oneLine "gate g a ".toList " x a; ".toList [] (by decide +kernel)
      (by decide +kernel) (by simp)),
    .statement "g q[0];".toList (by decide +kernel)]
  complete := by decide +kernel

/-- The call behind the definition is dropped. -/
theorem call_after_oneLine_dropped : stripSpuriousGateDefs "gate g a { x a; }\ng q[0];\n" = "" ∧
    oneLineGate.program = "g q[0];\n" ∧
    stripSpuriousGateDefs "gate g a { x a; }\ng q[0];\n" ≠ oneLineGate.program := by
  refine ⟨?_, ?_, ?_⟩ <;> decide +kernel

end Mqss.QrmWorkflow
