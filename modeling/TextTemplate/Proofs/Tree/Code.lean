/-
# The code of a tree

The row of instructions that a tree stands for, with the targets of all jumps filled in.  `k` is
the place where the row begins in its program, `depth` the number of blocks around it.

A conditional is a branch, its body, its chain and an end; the bodies of a chain jump to the place
behind that end.  A loop is a layer, the start of the loop, its body and the step to the next
item.  If it has an empty part, the body ends by setting a flag, and the part is a conditional on
that flag, which is cleared behind it.

* `Tree.linked` is the row, `Tree.size` its length;
* `Program.Has` says that a program holds a row at a place.
-/
import TextTemplate.Proofs.Tree.Evaluation

namespace TextTemplate

/-! ## 1. Rows -/

/-- An instruction of a token that does not jump. -/
def Linked.plain (t : Token) (i : Instruction) : Linked := ⟨i, some t, none⟩

/-- An instruction of a token that jumps. -/
def Linked.jump (t : Token) (i : Instruction) (target : Nat) : Linked := ⟨i, some t, some target⟩

/-- The row of a leaf. -/
def Leaf.linked (t : Token) (l : Leaf) : List Linked := l.code.map (.plain t)

/-- Where a branch in front of a chain jumps to: behind the first instruction of the chain, or to
the place where the whole conditional stops. -/
def Chain.entry (k stop : Nat) : Chain → Nat
  | done => stop
  | _ => k + 1

/-- What the body of a loop, or an empty part, ends with if another part follows. -/
def EmptyParts.lead (flag : String) : EmptyParts → List Linked
  | none => []
  | part t .. => [.plain t (.setFlag flag)]

/-- The length of the lead. -/
def EmptyParts.leadSize : EmptyParts → Nat
  | none => 0
  | part .. => 1

@[simp] theorem Leaf.length_linked (t : Token) (l : Leaf) :
    (l.linked t).length = l.code.length := List.length_map ..

@[simp] theorem EmptyParts.length_lead (flag : String) (parts : EmptyParts) :
    (parts.lead flag).length = parts.leadSize := by cases parts <;> rfl

mutual

/-- The number of instructions of a tree. -/
def Tree.size : Tree → Nat
  | .nil => 0
  | .leaf _ l next => l.code.length + next.size
  | .conditional _ _ body chain _ next => 1 + body.size + chain.size + 1 + next.size
  | .loop _ _ _ body parts _ next => 2 + body.size + parts.leadSize + 2 + parts.size + next.size
  | .skipped _ body _ next => 1 + body.size + 1 + next.size

/-- The number of instructions of a chain. -/
def Chain.size : Chain → Nat
  | .done => 0
  | .otherwise _ body => 1 + body.size
  | .alternative _ _ body chain => 2 + body.size + chain.size

/-- The number of instructions of empty parts. -/
def EmptyParts.size : EmptyParts → Nat
  | .none => 0
  | .part _ body chain more => 1 + body.size + chain.size + more.leadSize + 2 + more.size

end

mutual

/-- The row of a tree. -/
def Tree.linked (depth k : Nat) : Tree → List Linked
  | .nil => []
  | .leaf t l next => l.linked t ++ next.linked depth (k + l.code.length)
  | .conditional t c body chain closing next =>
    let j := k + 1 + body.size
    let stop := j + chain.size + 1
    .jump t (.branch c false) (chain.entry j stop) ::
      (body.linked (depth + 1) (k + 1) ++ (chain.linked (depth + 1) j stop ++
        .plain closing .endBranch :: next.linked depth stop))
  | .loop t names e body parts closing next =>
    let flag := Tag.loopFlag (depth + 1)
    let last := k + 2 + body.size + parts.leadSize
    let ending := parts.endOfBody closing
    .plain t .pushScope :: .jump t (.loopStart e names) (last + 1) ::
      (body.linked (depth + 1) (k + 2) ++ (parts.lead flag ++
        .jump ending .loopNext (k + 2) :: .plain ending .popScope ::
          (parts.linked (depth + 1) (last + 2) closing ++
            next.linked depth (last + 2 + parts.size))))
  | .skipped t body closing next =>
    let stop := k + 1 + body.size + 1
    .jump t .skip stop ::
      (body.linked (depth + 1) (k + 1) ++ .plain closing .endSkip :: next.linked depth stop)

/-- The row of a chain in a conditional that stops at a place. -/
def Chain.linked (depth k stop : Nat) : Chain → List Linked
  | .done => []
  | .otherwise t body => .jump t .otherwise stop :: body.linked depth (k + 1)
  | .alternative t c body chain =>
    let j := k + 2 + body.size
    .jump t .otherwise stop :: .jump t (.branch c true) (chain.entry j stop) ::
      (body.linked depth (k + 2) ++ chain.linked depth j stop)

/-- The row of empty parts, behind the loop. -/
def EmptyParts.linked (depth k : Nat) (closing : Token) : EmptyParts → List Linked
  | .none => []
  | .part t body chain more =>
    let flag := Tag.loopFlag depth
    let j := k + 1 + body.size
    let stop := j + chain.size + more.leadSize + 1
    let ending := more.endOfBody closing
    .jump t (.branch (.flagUnset flag) false) (chain.entry j stop) ::
      (body.linked depth (k + 1) ++ (chain.linked depth j stop ++ (more.lead flag ++
        .plain ending .endBranch :: .plain ending (.clearFlag flag) ::
          more.linked depth (stop + 1) closing)))

end

mutual

@[simp] theorem Tree.length_linked : ∀ (tree : Tree) (depth k : Nat),
    (tree.linked depth k).length = tree.size
  | .nil, _, _ => rfl
  | .leaf t l next, depth, k => by
    simp [Tree.linked, Tree.size, next.length_linked]
  | .conditional t c body chain closing next, depth, k => by
    simp only [Tree.linked, Tree.size, List.length_cons, List.length_append, body.length_linked,
      chain.length_linked, next.length_linked]
    omega
  | .loop t names e body parts closing next, depth, k => by
    simp only [Tree.linked, Tree.size, List.length_cons, List.length_append, body.length_linked,
      parts.length_linked, next.length_linked, EmptyParts.length_lead]
    omega
  | .skipped t body closing next, depth, k => by
    simp only [Tree.linked, Tree.size, List.length_cons, List.length_append, body.length_linked,
      next.length_linked]
    omega

@[simp] theorem Chain.length_linked : ∀ (chain : Chain) (depth k stop : Nat),
    (chain.linked depth k stop).length = chain.size
  | .done, _, _, _ => rfl
  | .otherwise t body, depth, k, stop => by
    simp only [Chain.linked, Chain.size, List.length_cons, body.length_linked]
    omega
  | .alternative t c body chain, depth, k, stop => by
    simp only [Chain.linked, Chain.size, List.length_cons, List.length_append, body.length_linked,
      chain.length_linked]
    omega

@[simp] theorem EmptyParts.length_linked : ∀ (parts : EmptyParts) (depth k : Nat)
    (closing : Token), (parts.linked depth k closing).length = parts.size
  | .none, _, _, _ => rfl
  | .part t body chain more, depth, k, closing => by
    simp only [EmptyParts.linked, EmptyParts.size, List.length_cons, List.length_append,
      body.length_linked, chain.length_linked, more.length_linked, EmptyParts.length_lead]
    omega

end

/-! ## 2. Rows in a program -/

namespace Program

/-- The program holds a row from a place on. -/
def Has (p : Program) : (k : Nat) → List Linked → Prop
  | _, [] => True
  | k, i :: rest => p.code[k]? = some i ∧ p.Has (k + 1) rest

variable {p : Program}

theorem has_append : ∀ {k : Nat} {row row' : List Linked},
    p.Has k (row ++ row') ↔ p.Has k row ∧ p.Has (k + row.length) row'
  | k, [], row' => by simp [Has]
  | k, i :: row, row' => by
    have ih := @has_append (k + 1) row row'
    have hk : k + 1 + row.length = k + (row.length + 1) := by omega
    simp only [List.cons_append, Has, ih, List.length_cons, and_assoc, hk]

/-- A place at which the program holds an instruction lies in the program. -/
theorem lt_size {k : Nat} {i : Linked} (h : p.code[k]? = some i) : k < p.size :=
  (Array.getElem?_eq_some_iff.mp h).1

/-- A program holds its own row. -/
theorem has_self {row : List Linked} : (Program.mk row.toArray).Has 0 row := by
  have hfrom : ∀ before after : List Linked,
      (Program.mk (before ++ after).toArray).Has before.length after := by
    intro before after
    induction after generalizing before with
    | nil => trivial
    | cons i after ih =>
      refine ⟨by simp, ?_⟩
      have h := ih (before ++ [i])
      simpa using h
  exact hfrom [] row

end Program
end TextTemplate
