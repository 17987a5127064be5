/-
# Linking the row of a tree

Linking goes through the items of a program once and finds the target of every jump.  For the row
of a tree it finds the targets that the row has (`Tree.fills`), and no block is open behind it that
was not open in front of it.

While a chain is linked, its conditional is open: one branch has no target yet, and the jumps to
the end have none.  `Assembly.closed` are the targets that there would be if the conditional were
closed at some place, and `Chain.links` is about those.

* `itemsFrom` are the items of a row, `valueAt` is what stands at a place of a row;
* `Assembly.Fills` says that linking a row finds the targets of the row;
* `Program.assemble_linked` puts together that the row of a tree is linked to itself.
-/
import TextTemplate.Proofs.Tree.Code

namespace TextTemplate

/-! ## 1. Rows and their items -/

/-- The items of a row that begins at a place. -/
def itemsFrom : Nat → List Linked → List Item
  | _, [] => []
  | k, i :: row => ⟨k, i.instruction, i.token⟩ :: itemsFrom (k + 1) row

/-- What a row that begins at a place has to say about a place. -/
def valueAt {α : Type} (value : Linked → Option α) : Nat → List Linked → Nat → Option α
  | _, [], _ => none
  | k, i :: row, l => if l = k then value i else valueAt value (k + 1) row l

section Rows

variable {α : Type} {value : Linked → Option α}

theorem valueAt_of_lt : ∀ {row : List Linked} {k l : Nat}, l < k → valueAt value k row l = none
  | [], _, _, _ => rfl
  | i :: row, k, l, h => by
    rw [valueAt, if_neg (Nat.ne_of_lt h)]
    exact valueAt_of_lt (Nat.lt_succ_of_lt h)

theorem valueAt_append : ∀ (row row' : List Linked) (k l : Nat), valueAt value k (row ++ row') l =
    (valueAt value (k + row.length) row' l).or (valueAt value k row l)
  | [], row', k, l => by simp [valueAt]
  | i :: row, row', k, l => by
    have ih := valueAt_append row row' (k + 1) l
    have hk : k + 1 + row.length = k + (row.length + 1) := by omega
    rw [hk] at ih
    rw [List.cons_append, valueAt, valueAt, List.length_cons, ih]
    by_cases hl : l = k
    · rw [if_pos hl, if_pos hl, valueAt_of_lt (by omega), Option.none_or]
    · rw [if_neg hl, if_neg hl]

theorem itemsFrom_append : ∀ (row row' : List Linked) (k : Nat),
    itemsFrom k (row ++ row') = itemsFrom k row ++ itemsFrom (k + row.length) row'
  | [], row', k => rfl
  | i :: row, row', k => by
    have ih := itemsFrom_append row row' (k + 1)
    have hk : k + 1 + row.length = k + (row.length + 1) := by omega
    rw [List.cons_append, itemsFrom, ih, itemsFrom, List.length_cons, hk, List.cons_append]

theorem length_itemsFrom : ∀ (row : List Linked) (k : Nat), (itemsFrom k row).length = row.length
  | [], _ => rfl
  | _ :: row, k => congrArg (· + 1) (length_itemsFrom row (k + 1))

end Rows

/-- The target at a place of a row. -/
abbrev targetAt : Nat → List Linked → Nat → Option Nat := valueAt (·.target)

/-! ## 2. Single items -/

namespace Assembly

/-- The target of a label so far. -/
def target? (a : Assembly) (l : Nat) : Option Nat := a.targets.lookup l

theorem target?_aim (a : Assembly) (label target l : Nat) :
    (a.aim label target).target? l = if l = label then some target else a.target? l := by
  unfold target? aim
  rw [List.lookup_cons]
  by_cases h : l = label
  · simp [h]
  · simp [h, beq_false_of_ne h]

/-- Several labels that get the same target. -/
theorem target?_foldr_aim (a : Assembly) (target l : Nat) : ∀ labels : List Nat,
    (labels.foldr (fun label a => a.aim label target) a).target? l =
      if l ∈ labels then some target else a.target? l
  | [] => by simp
  | label :: labels => by
    rw [List.foldr_cons, target?_aim, target?_foldr_aim a target l labels]
    by_cases h : l = label
    · simp [h]
    · simp [h]

theorem blocks_foldr_aim (a : Assembly) (target : Nat) : ∀ labels : List Nat,
    (labels.foldr (fun label a => a.aim label target) a).blocks = a.blocks
  | [] => rfl
  | _ :: labels => blocks_foldr_aim a target labels

/-- The targets that there would be if the innermost block, a conditional, stopped at a place. -/
def closed (a : Assembly) (b : OpenBlock) (stop l : Nat) : Option Nat :=
  if l ∈ b.exits then some stop
  else if b.pending = some l then some stop
  else a.target? l

variable {a a' a'' : Assembly} {tokenOf : Nat → Option Token} {k : Nat} {b : OpenBlock}
  {rest : List OpenBlock}

theorem expect_of_kind {kind : BlockKind} {item : Item} {token : Option Token}
    (hb : a.blocks = b :: rest) (hk : b.kind = kind) :
    a.expect kind item token = .ok (b, rest) := by
  simp only [expect, hb, if_pos hk]

/-! ## 3. Rows -/

/-- Linking a row from one state leads to another. -/
def Links (tokenOf : Nat → Option Token) (a : Assembly) (k : Nat) (row : List Linked)
    (a' : Assembly) : Prop :=
  a.linkFrom tokenOf k (itemsFrom k row) = .ok a'

theorem Links.cons {i : Linked} {row : List Linked}
    (hi : a.link k ⟨k, i.instruction, i.token⟩ (tokenOf k) = .ok a')
    (hrow : a'.Links tokenOf (k + 1) row a'') : a.Links tokenOf k (i :: row) a'' := by
  unfold Links itemsFrom
  rw [linkFrom]
  simp only [hi]
  exact hrow

/-- Items are linked one after the other. -/
theorem linkFrom_append (tokenOf : Nat → Option Token) (items' : List Item) :
    ∀ (items : List Item) (a : Assembly) (k : Nat), a.linkFrom tokenOf k (items ++ items') =
      (a.linkFrom tokenOf k items >>= fun a' => a'.linkFrom tokenOf (k + items.length) items')
  | [], a, k => rfl
  | item :: items, a, k => by
    have hk : k + (item :: items).length = k + 1 + items.length := by
      rw [List.length_cons]
      omega
    rw [List.cons_append, linkFrom, linkFrom, hk]
    cases a.link k item (tokenOf item.label) with
    | error e => rfl
    | ok a' => exact linkFrom_append tokenOf items' items a' (k + 1)

theorem Links.append {row row' : List Linked} (hrow : a.Links tokenOf k row a')
    (hrow' : a'.Links tokenOf (k + row.length) row' a'') :
    a.Links tokenOf k (row ++ row') a'' := by
  unfold Links at *
  rw [itemsFrom_append, linkFrom_append, hrow, length_itemsFrom]
  exact hrow'

theorem Links.single {i : Linked}
    (hi : a.link k ⟨k, i.instruction, i.token⟩ (tokenOf k) = .ok a') :
    a.Links tokenOf k [i] a' := .cons hi rfl

/-- The state behind the end of a conditional. -/
def closing (a : Assembly) (b : OpenBlock) (rest : List OpenBlock) (stop : Nat) : Assembly :=
  let a := { a with blocks := rest }
  b.exits.foldr (fun label a => a.aim label stop) <|
    match b.pending with
    | some pending => a.aim pending stop
    | none => a

theorem blocks_closing (stop : Nat) : (a.closing b rest stop).blocks = rest := by
  rw [closing, blocks_foldr_aim]
  cases b.pending <;> rfl

theorem target?_closing (stop l : Nat) :
    (a.closing b rest stop).target? l = a.closed b stop l := by
  rw [closing, target?_foldr_aim, closed]
  cases hp : b.pending with
  | none => simp [target?]
  | some p =>
    simp only [target?_aim, Option.some.injEq, eq_comm]
    rfl

/-- **The end of a conditional** closes it. -/
theorem links_endBranch {t : Token} (hb : a.blocks = b :: rest) (hk : b.kind = .conditional) :
    ∃ a', a.Links tokenOf k [.plain t .endBranch] a' ∧ a'.blocks = rest ∧
      ∀ l, a'.target? l = a.closed b (k + 1) l := by
  have hlink : a.link k ⟨k, .endBranch, some t⟩ (tokenOf k) = .ok (a.closing b rest (k + 1)) := by
    simp only [link, expect_of_kind hb hk]
    rfl
  exact ⟨_, .single hlink, blocks_closing _, target?_closing _⟩

/-- The end of a loop closes it, and gets a target itself: the first place of the body. -/
theorem links_loopNext {t : Token} {target : Nat} (hb : a.blocks = b :: rest)
    (hk : b.kind = .loop) :
    ∃ a', a.Links tokenOf k [.jump t .loopNext target] a' ∧ a'.blocks = rest ∧
      ∀ l, a'.target? l = if l = k then some (b.index + 1)
        else if l = b.opener.label then some (k + 1) else a.target? l := by
  have hlink : a.link k ⟨k, .loopNext, some t⟩ (tokenOf k) =
      .ok (({ a with blocks := rest }.aim b.opener.label (k + 1)).aim k (b.index + 1)) := by
    simp only [link, expect_of_kind hb hk]
    rfl
  refine ⟨_, .single hlink, rfl, fun l => ?_⟩
  rw [target?_aim, target?_aim]
  rfl

theorem links_endSkip {t : Token} (hb : a.blocks = b :: rest) (hk : b.kind = .skipped) :
    ∃ a', a.Links tokenOf k [.plain t .endSkip] a' ∧ a'.blocks = rest ∧
      ∀ l, a'.target? l = if l = b.opener.label then some (k + 1) else a.target? l := by
  have hlink : a.link k ⟨k, .endSkip, some t⟩ (tokenOf k) =
      .ok ({ a with blocks := rest }.aim b.opener.label (k + 1)) := by
    simp only [link, expect_of_kind hb hk]
    rfl
  refine ⟨_, .single hlink, rfl, fun l => ?_⟩
  rw [target?_aim]
  rfl

/-- **Linking a row finds the targets of the row**, and leaves the open blocks as they are. -/
structure Fills (tokenOf : Nat → Option Token) (a : Assembly) (k : Nat) (row : List Linked)
    (a' : Assembly) : Prop where
  links : a.Links tokenOf k row a'
  blocks : a'.blocks = a.blocks
  target : ∀ l, a'.target? l = (targetAt k row l).or (a.target? l)

namespace Fills

theorem nil : Fills tokenOf a k [] a := ⟨rfl, rfl, fun _ => rfl⟩

theorem append {row row' : List Linked} (hrow : Fills tokenOf a k row a')
    (hrow' : Fills tokenOf a' (k + row.length) row' a'') :
    Fills tokenOf a k (row ++ row') a'' where
  links := hrow.links.append hrow'.links
  blocks := hrow'.blocks.trans hrow.blocks
  target l := by rw [hrow'.target, hrow.target, ← Option.or_assoc, ← valueAt_append]

end Fills

/-- A row that neither jumps nor opens or closes blocks. -/
structure Idle (tokenOf : Nat → Option Token) (k : Nat) (row : List Linked) : Prop where
  links : ∀ a : Assembly, a.Links tokenOf k row a
  target : ∀ l, targetAt k row l = none

namespace Idle

theorem nil : Idle tokenOf k [] := ⟨fun _ => rfl, fun _ => rfl⟩

theorem single {i : Linked} (ht : i.target = none)
    (hi : ∀ a : Assembly, a.link k ⟨k, i.instruction, i.token⟩ (tokenOf k) = .ok a) :
    Idle tokenOf k [i] where
  links a := .single (hi a)
  target l := by
    rw [targetAt, valueAt]
    by_cases hl : l = k
    · rw [if_pos hl, ht]
    · rw [if_neg hl, valueAt]

theorem fills {row : List Linked} (h : Idle tokenOf k row) (a : Assembly) :
    Fills tokenOf a k row a :=
  ⟨h.links a, rfl, fun l => by rw [h.target, Option.none_or]⟩

end Idle

end Assembly

open Assembly

variable {tokenOf : Nat → Option Token}

/-! ## 4. Leaves and leads -/

theorem Leaf.idle (t : Token) (leaf : Leaf) (k : Nat) : Idle tokenOf k (leaf.linked t) := by
  cases leaf with
  | nothing => exact .nil
  | _ => exact .single rfl fun _ => rfl

theorem EmptyParts.idle_lead (flag : String) (parts : EmptyParts) (k : Nat) :
    Idle tokenOf k (parts.lead flag) := by
  cases parts with
  | none => exact .nil
  | part => exact .single rfl fun _ => rfl

/-! ## 5. Blocks -/

/-- A row that is linked inside any blocks. -/
def Fillable (tokenOf : Nat → Option Token) (k : Nat) (row : List Linked) : Prop :=
  ∀ a : Assembly, ∃ a', Fills tokenOf a k row a'

theorem Fillable.append {k k' : Nat} {row row' : List Linked} (hrow : Fillable tokenOf k row)
    (hrow' : Fillable tokenOf k' row') (hk : k' = k + row.length) :
    Fillable tokenOf k (row ++ row') := by
  subst hk
  intro a
  obtain ⟨a₁, h₁⟩ := hrow a
  obtain ⟨a₂, h₂⟩ := hrow' a₁
  exact ⟨a₂, h₁.append h₂⟩

theorem Assembly.Idle.fillable {k : Nat} {row : List Linked} (h : Idle tokenOf k row) :
    Fillable tokenOf k row :=
  fun a => ⟨a, h.fills a⟩

/-- A row of a chain, inside a conditional whose last branch has the label `p` and no target. -/
def Chained (tokenOf : Nat → Option Token) (j stop entry : Nat) (row : List Linked) : Prop :=
  ∀ (a : Assembly) (b : OpenBlock) (rest : List OpenBlock) (p : Nat),
    a.blocks = b :: rest → b.kind = .conditional → b.pending = some p → p < j → p ∉ b.exits →
    (∀ x ∈ b.exits, x < j) →
    ∃ a' b', a.Links tokenOf j row a' ∧ a'.blocks = b' :: rest ∧ b'.kind = .conditional ∧
      ∀ l, a'.closed b' stop l =
        if l = p then some entry else if l ∈ b.exits then some stop
        else (targetAt j row l).or (a.target? l)

/-- **A conditional**: a branch, a body, a chain and the end, perhaps with a lead before it. -/
theorem fillable_branch {t ending : Token} {c : Condition} {k j m entry stop : Nat}
    {body chain lead : List Linked} (hbody : Fillable tokenOf (k + 1) body)
    (hchain : Chained tokenOf j stop entry chain) (hlead : Idle tokenOf m lead)
    (hj : j = k + 1 + body.length) (hm : m = j + chain.length)
    (hstop : stop = m + lead.length + 1) :
    Fillable tokenOf k (.jump t (.branch c false) entry ::
      (body ++ (chain ++ (lead ++ [.plain ending .endBranch])))) := by
  subst hj hm
  intro a
  obtain ⟨a₁, hf₁⟩ := hbody (a.openBlock .conditional ⟨k, .branch c false, some t⟩ k)
  obtain ⟨a₂, b, hl₂, hb₂, hk₂, ht₂⟩ := hchain a₁ _ a.blocks k hf₁.blocks rfl rfl (by omega)
    List.not_mem_nil fun _ h => absurd h List.not_mem_nil
  obtain ⟨a₃, hl₃, hb₃, ht₃⟩ := @links_endBranch a₂ tokenOf
    (k + 1 + body.length + chain.length + lead.length) b a.blocks ending hb₂ hk₂
  refine ⟨a₃, .cons rfl (hf₁.links.append (hl₂.append ((hlead.links a₂).append hl₃))), hb₃,
    fun l => ?_⟩
  have htarget := hlead.target l
  simp only [ht₃, ← hstop, ht₂, hf₁.target, targetAt, valueAt, valueAt_append] at htarget ⊢
  by_cases hl : l = k
  · rw [if_pos hl, if_pos hl]
    rfl
  · rw [if_neg hl, if_neg hl, if_neg List.not_mem_nil, htarget]
    simp [Linked.plain, Option.or_assoc]
    rfl

/-- **A loop**: its start, a body, perhaps a lead, and the step to the next item. -/
theorem fillable_loop {t ending : Token} {e : Expression} {names : List String}
    {k m stop : Nat} {body lead : List Linked} (hbody : Fillable tokenOf (k + 1) body)
    (hlead : Idle tokenOf m lead) (hm : m = k + 1 + body.length)
    (hstop : stop = m + lead.length + 1) :
    Fillable tokenOf k (.jump t (.loopStart e names) stop ::
      (body ++ (lead ++ [.jump ending .loopNext (k + 1)]))) := by
  subst hm
  intro a
  obtain ⟨a₁, hf₁⟩ := hbody (a.openBlock .loop ⟨k, .loopStart e names, some t⟩ k)
  obtain ⟨a₂, hl₂, hb₂, ht₂⟩ := @links_loopNext a₁ tokenOf
    (k + 1 + body.length + lead.length) _ a.blocks ending (k + 1) hf₁.blocks rfl
  refine ⟨a₂, .cons rfl (hf₁.links.append ((hlead.links a₁).append hl₂)), hb₂, fun l => ?_⟩
  have htarget := hlead.target l
  simp only [ht₂, hf₁.target, targetAt, valueAt, valueAt_append] at htarget ⊢
  by_cases hl : l = k
  · rw [if_neg (by omega), if_pos hl, if_pos hl, hstop]
    rfl
  · by_cases hm : l = k + 1 + body.length + lead.length
    · rw [if_pos hm, if_neg hl, if_pos hm]
      rfl
    · rw [if_neg hm, if_neg hl, if_neg hl, if_neg hm, htarget]
      rfl

/-- **A skipped region**. -/
theorem fillable_skip {t ending : Token} {k stop : Nat} {body : List Linked}
    (hbody : Fillable tokenOf (k + 1) body) (hstop : stop = k + 1 + body.length + 1) :
    Fillable tokenOf k (.jump t .skip stop :: (body ++ [.plain ending .endSkip])) := by
  intro a
  obtain ⟨a₁, hf₁⟩ := hbody (a.openBlock .skipped ⟨k, .skip, some t⟩ k)
  obtain ⟨a₂, hl₂, hb₂, ht₂⟩ := @links_endSkip a₁ tokenOf (k + 1 + body.length) _ a.blocks ending
    hf₁.blocks rfl
  refine ⟨a₂, .cons rfl (hf₁.links.append hl₂), hb₂, fun l => ?_⟩
  simp only [ht₂, hf₁.target, targetAt, valueAt, valueAt_append]
  by_cases hl : l = k
  · rw [if_pos hl, if_pos hl, hstop]
    rfl
  · rw [if_neg hl, if_neg hl]
    simp only [Linked.plain, ite_self, Option.none_or]
    rfl

/-! ## 6. Chains -/

theorem chained_nil {j stop : Nat} : Chained tokenOf j stop stop [] := by
  intro a b rest p hb hk hp hlt hnot hexits
  refine ⟨a, b, rfl, hb, hk, fun l => ?_⟩
  rw [closed, hp]
  by_cases hl : l = p
  · rw [hl, if_neg hnot, if_pos rfl, if_pos rfl]
  · rw [if_neg hl, if_neg (show ¬some p = some l by simpa using Ne.symm hl)]
    rfl

/-- The end of the body before, which jumps to the end of the conditional. -/
theorem links_otherwise {t : Token} {a : Assembly} {b : OpenBlock} {rest : List OpenBlock}
    {p j target : Nat} (hb : a.blocks = b :: rest) (hk : b.kind = .conditional)
    (hp : b.pending = some p) :
    ∃ a', a.Links tokenOf j [.jump t .otherwise target] a' ∧
      a'.blocks = { b with pending := none, exits := j :: b.exits } :: rest ∧
      ∀ l, a'.target? l = if l = p then some (j + 1) else a.target? l := by
  have hlink : a.link j ⟨j, .otherwise, some t⟩ (tokenOf j) =
      .ok ({ a with blocks := { b with pending := none, exits := j :: b.exits } :: rest }.aim p
        (j + 1)) := by
    simp only [link, expect_of_kind hb hk]
    simp only [bind, Except.bind, hp]
  refine ⟨_, .single hlink, rfl, fun l => ?_⟩
  rw [target?_aim]
  rfl

theorem chained_otherwise {t : Token} {j stop : Nat} {body : List Linked}
    (hbody : Fillable tokenOf (j + 1) body) :
    Chained tokenOf j stop (j + 1) (.jump t .otherwise stop :: body) := by
  intro a b rest p hb hk hp hlt hnot hexits
  obtain ⟨a₁, hl₁, hb₁, ht₁⟩ := @links_otherwise tokenOf t a b rest p j stop hb hk hp
  obtain ⟨a₂, hf₂⟩ := hbody a₁
  refine ⟨a₂, _, hl₁.append hf₂.links, hf₂.blocks.trans hb₁, hk, fun l => ?_⟩
  simp only [closed, hf₂.target, ht₁, targetAt, valueAt, List.mem_cons, reduceCtorEq, if_false]
  by_cases hl : l = p
  · have hj : l ≠ j := by omega
    rw [hl] at hj ⊢
    rw [if_neg (by simp [hj, hnot]), if_pos rfl, if_pos rfl, valueAt_of_lt (by omega),
      Option.none_or]
  · by_cases hx : l ∈ b.exits
    · rw [if_pos (.inr hx), if_neg hl, if_pos hx]
    · by_cases hj : l = j
      · rw [if_pos (.inl hj), if_neg hl, if_neg hx, if_pos hj]
        rfl
      · rw [if_neg (by simp [hj, hx]), if_neg hl, if_neg hl, if_neg hx, if_neg hj]

theorem chained_alternative {t : Token} {c : Condition} {j m stop entry : Nat}
    {body chain : List Linked} (hbody : Fillable tokenOf (j + 2) body)
    (hchain : Chained tokenOf m stop entry chain) (hm : m = j + 2 + body.length) :
    Chained tokenOf j stop (j + 1)
      (.jump t .otherwise stop :: .jump t (.branch c true) entry :: (body ++ chain)) := by
  subst hm
  intro a b rest p hb hk hp hlt hnot hexits
  obtain ⟨a₁, hl₁, hb₁, ht₁⟩ := @links_otherwise tokenOf t a b rest p j stop hb hk hp
  have hlink : a₁.link (j + 1) ⟨j + 1, .branch c true, some t⟩ (tokenOf (j + 1)) =
      .ok { a₁ with
        blocks := ⟨b.kind, b.opener, b.index, some (j + 1), j :: b.exits⟩ :: rest } := by
    have hk₁ :
        ({ b with pending := none, exits := j :: b.exits } : OpenBlock).kind = .conditional :=
      hk
    simp only [link, expect_of_kind hb₁ hk₁]
    rfl
  obtain ⟨a₂, hf₂⟩ := hbody
    { a₁ with blocks := ⟨b.kind, b.opener, b.index, some (j + 1), j :: b.exits⟩ :: rest }
  have hbefore : ∀ x ∈ j :: b.exits, x < j + 1 := by
    intro x hx
    rcases List.mem_cons.mp hx with rfl | hx
    · exact Nat.lt_succ_self x
    · exact Nat.lt_succ_of_lt (hexits x hx)
  obtain ⟨a₃, b', hl₃, hb₃, hk₃, ht₃⟩ := hchain a₂ _ rest (j + 1) hf₂.blocks hk rfl (by omega)
    (fun hx => Nat.lt_irrefl _ (hbefore _ hx)) (fun x hx => Nat.lt_of_lt_of_le (hbefore x hx)
      (by omega))
  refine ⟨a₃, b', hl₁.append (.cons hlink (hf₂.links.append hl₃)), hb₃, hk₃, fun l => ?_⟩
  have ht₂ : ∀ l, a₂.target? l =
      (targetAt (j + 2) body l).or (if l = p then some (j + 1) else a.target? l) :=
    fun l => (hf₂.target l).trans (congrArg _ (ht₁ l))
  simp only [ht₃, ht₂, targetAt, valueAt, valueAt_append, List.mem_cons]
  by_cases hl : l = p
  · have hj : l ≠ j := by omega
    have hj' : l ≠ j + 1 := by omega
    rw [hl] at hj hj' ⊢
    rw [if_neg hj', if_neg (by simp [hj, hnot]), if_pos rfl, if_pos rfl, valueAt_of_lt (by omega),
      valueAt_of_lt (by omega), Option.none_or, Option.none_or]
  · by_cases hx : l ∈ b.exits
    · have hj' : l ≠ j + 1 := fun h => by
        have := hexits l hx
        omega
      rw [if_neg hj', if_pos (.inr hx), if_neg hl, if_pos hx]
    · by_cases hj : l = j
      · rw [if_neg (by omega), if_pos (.inl hj), if_neg hl, if_neg hx, if_pos hj]
        rfl
      · rw [if_neg (show ¬(l = j ∨ l ∈ b.exits) by simp [hj, hx]), if_neg hl, if_neg hl,
          if_neg hx, if_neg hj]
        by_cases hj' : l = j + 1
        · rw [if_pos hj', if_pos hj']
          rfl
        · rw [if_neg hj', if_neg hj', Option.or_assoc]

/-! ## 7. Trees -/

mutual

/-- **The row of a tree is linked to its targets**, inside any blocks. -/
theorem Tree.fillable : ∀ (tree : Tree) (depth k : Nat),
    Fillable tokenOf k (tree.linked depth k)
  | .nil, _, _ => fun a => ⟨a, .nil⟩
  | .leaf t leaf next, depth, k => by
    refine (leaf.idle t k).fillable.append (next.fillable depth (k + leaf.code.length)) ?_
    rw [Leaf.length_linked]
  | .conditional t c body chain closing next, depth, k => by
    have hrow : (Tree.conditional t c body chain closing next).linked depth k =
        (.jump t (.branch c false) (chain.entry (k + 1 + body.size)
          (k + 1 + body.size + chain.size + 1)) :: (body.linked (depth + 1) (k + 1) ++
            (chain.linked (depth + 1) (k + 1 + body.size) (k + 1 + body.size + chain.size + 1) ++
              ([] ++ [.plain closing .endBranch])))) ++
        next.linked depth (k + 1 + body.size + chain.size + 1) := by
      simp [Tree.linked]
    rw [hrow]
    refine Fillable.append (fillable_branch (body.fillable (depth + 1) (k + 1))
      (chain.chained (depth + 1) _ _) .nil ?_ rfl ?_) (next.fillable depth _) ?_
    · simp
    · simp
    · simp
      omega
  | .loop t names e body parts closing next, depth, k => by
    have hrow : (Tree.loop t names e body parts closing next).linked depth k =
        [.plain t .pushScope] ++ ((.jump t (.loopStart e names)
          (k + 2 + body.size + parts.leadSize + 1) :: (body.linked (depth + 1) (k + 2) ++
            (parts.lead (Tag.loopFlag (depth + 1)) ++
              [.jump (parts.endOfBody closing) .loopNext (k + 2)]))) ++
        ([.plain (parts.endOfBody closing) .popScope] ++
          (parts.linked (depth + 1) (k + 2 + body.size + parts.leadSize + 2) closing ++
            next.linked depth (k + 2 + body.size + parts.leadSize + 2 + parts.size)))) := by
      simp [Tree.linked]
    have hpush : Idle tokenOf k [.plain t .pushScope] := .single rfl fun _ => rfl
    have hpop : Idle tokenOf (k + 2 + body.size + parts.leadSize + 1)
        [.plain (parts.endOfBody closing) .popScope] := .single rfl fun _ => rfl
    have hbehind := (parts.fillable (depth + 1) (k + 2 + body.size + parts.leadSize + 2)
      closing).append (next.fillable depth _) (by rw [EmptyParts.length_linked])
    rw [hrow]
    refine hpush.fillable.append (Fillable.append (fillable_loop (body.fillable (depth + 1) _)
      (parts.idle_lead _ (k + 2 + body.size)) ?_ ?_) (hpop.fillable.append hbehind rfl) ?_) rfl
    · simp
    · simp
    · simp
      omega
  | .skipped t body closing next, depth, k => by
    have hrow : (Tree.skipped t body closing next).linked depth k =
        (.jump t .skip (k + 1 + body.size + 1) ::
          (body.linked (depth + 1) (k + 1) ++ [.plain closing .endSkip])) ++
        next.linked depth (k + 1 + body.size + 1) := by
      simp [Tree.linked]
    rw [hrow]
    refine Fillable.append (fillable_skip (body.fillable (depth + 1) (k + 1)) ?_)
      (next.fillable depth _) ?_
    · simp
    · simp
      omega

/-- **The row of a chain is linked to its targets**, in a conditional that stops at a place. -/
theorem Chain.chained : ∀ (chain : Chain) (depth j stop : Nat),
    Chained tokenOf j stop (chain.entry j stop) (chain.linked depth j stop)
  | .done, _, _, _ => chained_nil
  | .otherwise t body, depth, j, stop => chained_otherwise (body.fillable depth (j + 1))
  | .alternative t c body chain, depth, j, stop => by
    refine chained_alternative (body.fillable depth (j + 2)) (chain.chained depth _ stop) ?_
    rw [Tree.length_linked]

/-- **The row of empty parts is linked to its targets**, inside any blocks. -/
theorem EmptyParts.fillable : ∀ (parts : EmptyParts) (depth k : Nat) (closing : Token),
    Fillable tokenOf k (parts.linked depth k closing)
  | .none, _, _, _ => fun a => ⟨a, .nil⟩
  | .part t body chain more, depth, k, closing => by
    have hrow : (EmptyParts.part t body chain more).linked depth k closing =
        (.jump t (.branch (.flagUnset (Tag.loopFlag depth)) false) (chain.entry (k + 1 + body.size)
          (k + 1 + body.size + chain.size + more.leadSize + 1)) ::
          (body.linked depth (k + 1) ++ (chain.linked depth (k + 1 + body.size)
            (k + 1 + body.size + chain.size + more.leadSize + 1) ++
              (more.lead (Tag.loopFlag depth) ++
                [.plain (more.endOfBody closing) .endBranch])))) ++
        ([.plain (more.endOfBody closing) (.clearFlag (Tag.loopFlag depth))] ++
          more.linked depth (k + 1 + body.size + chain.size + more.leadSize + 1 + 1) closing) := by
      simp [EmptyParts.linked]
    have hclear : Idle tokenOf (k + 1 + body.size + chain.size + more.leadSize + 1)
        [.plain (more.endOfBody closing) (.clearFlag (Tag.loopFlag depth))] :=
      .single rfl fun _ => rfl
    rw [hrow]
    refine Fillable.append (fillable_branch (body.fillable depth (k + 1))
      (chain.chained depth _ _) (more.idle_lead _ _) ?_ rfl ?_)
      (hclear.fillable.append (more.fillable depth _ closing) rfl) ?_
    · simp
    · simp
    · simp
      omega

end

/-! ## 8. Whole programs -/

theorem tokenOf?_itemsFrom : ∀ (row : List Linked) (k l : Nat),
    tokenOf? (itemsFrom k row) l = valueAt (·.token) k row l
  | [], _, _ => rfl
  | i :: row, k, l => by
    have ih := tokenOf?_itemsFrom row (k + 1) l
    unfold tokenOf? at ih ⊢
    rw [itemsFrom, List.findSome?_cons, ih, valueAt]
    by_cases hl : l = k
    · rw [if_pos hl, if_pos hl.symm, valueAt_of_lt (by omega)]
      cases i.token <;> rfl
    · rw [if_neg hl, if_neg (Ne.symm hl)]

/-- A row is its items with the right tokens and targets. -/
theorem map_itemsFrom (tokenOf : Nat → Option Token) (target : Nat → Option Nat) :
    ∀ (row : List Linked) (k : Nat), (∀ l, k ≤ l → tokenOf l = valueAt (·.token) k row l) →
    (∀ l, k ≤ l → target l = targetAt k row l) →
      (itemsFrom k row).map (fun item =>
        ⟨item.instruction, tokenOf item.label, target item.label⟩) = row
  | [], _, _, _ => rfl
  | i :: row, k, htoken, htarget => by
    have hrest : ∀ {α : Type} (value : Linked → Option α) {l : Nat}, k + 1 ≤ l →
        valueAt value k (i :: row) l = valueAt value (k + 1) row l := by
      intro α value l hl
      rw [valueAt, if_neg (by omega)]
    have ih := map_itemsFrom tokenOf target row (k + 1)
      (fun l hl => (htoken l (by omega)).trans (hrest _ hl))
      (fun l hl => (htarget l (by omega)).trans (hrest _ hl))
    rw [itemsFrom, List.map_cons, ih, htoken k (Nat.le_refl k), htarget k (Nat.le_refl k)]
    simp [targetAt, valueAt]

/-- **The row of a tree is linked to itself.** -/
theorem Program.assemble_linked (tree : Tree) :
    assemble (itemsFrom 0 (tree.linked 0 0)) = .ok ⟨(tree.linked 0 0).toArray⟩ := by
  obtain ⟨a, hlinks, hblocks, htarget⟩ :=
    @Tree.fillable (tokenOf? (itemsFrom 0 (tree.linked 0 0))) tree 0 0 Assembly.start
  have hmap := map_itemsFrom (tokenOf? (itemsFrom 0 (tree.linked 0 0))) a.target?
    (tree.linked 0 0) 0 (fun l _ => tokenOf?_itemsFrom _ 0 l)
    (fun l _ => (htarget l).trans (Option.or_none ..))
  unfold assemble
  rw [show Assembly.start.linkFrom _ 0 _ = .ok a from hlinks]
  simp only [bind, Except.bind]
  rw [show a.blocks = [] from hblocks]
  exact congrArg (fun row => Except.ok (Program.mk (List.toArray row))) hmap

end TextTemplate
