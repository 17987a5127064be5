/-
# Names in a region

The names of a template lead into the region, if they did at the beginning: looking up a name or
a path gives values that lie in the region, and binding a name to such a value keeps it so.
-/
import TextTemplate.Expression.Operand
import TextTemplate.Proofs.Safety.Calls

namespace TextTemplate

open TextTemplate.Outcome

variable {R : Region} {s : Store} {c : Scopes}

namespace Region

/-! ## 1. Scopes -/

/-- All names lead into the region. -/
structure PlainScopes (R : Region) (c : Scopes) : Prop where
  root : R.Plain c.root
  pushed : ∀ layer ∈ c.pushed, R.PlainDict layer

theorem PlainScopes.push (h : R.PlainScopes c) : R.PlainScopes (c.push []) :=
  ⟨h.root, List.forall_mem_cons.mpr ⟨fun _ he => absurd he List.not_mem_nil, h.pushed⟩⟩

theorem PlainScopes.pop {layer : Dict} {c' : Scopes} (h : R.PlainScopes c)
    (hp : c.pop? = some (layer, c')) : R.PlainScopes c' := by
  unfold Scopes.pop? at hp
  split at hp
  · cases hp
  · rename_i layer' rest hpushed
    cases hp
    have hlayers := h.pushed
    rw [hpushed] at hlayers
    exact ⟨h.root, (List.forall_mem_cons.mp hlayers).2⟩

theorem plainDict_constants : R.PlainDict Scopes.constants := by
  have hnil : R.PlainDict [] := fun e he => absurd he List.not_mem_nil
  exact ((hnil.insert _ (plain_text _) (plain_bool true)).insert _ (plain_text _)
    (plain_bool false)).insert _ (plain_text _) plain_none

theorem PlainScopes.findPushed (h : R.PlainScopes c) {k : Key} {v : Value}
    (hv : c.findPushed? k = some v) : R.Plain v := by
  obtain ⟨layer, hlayer, hfound⟩ := List.exists_of_findSome?_eq_some hv
  exact (h.pushed layer hlayer).find? hfound

/-- **What a name stands for** lies in the region. -/
theorem keeps_lookup (h : R.PlainScopes c) (name : Value) :
    R.Keeps (c.lookup name) R.Plain := by
  unfold Scopes.lookup
  refine .bind .get fun s _ => ?_
  dsimp only
  split
  · rename_i v hfound
    obtain ⟨k, -, hk⟩ := Option.bind_eq_some_iff.mp hfound
    exact .pure (h.findPushed hk)
  · split
    · exact .fail _
    · refine .bind (keeps_contains h.root.1 name) fun found _ => ?_
      split
      · exact .read fun s' v hs' hv => hs'.item h.root.1 hv
      · split
        · exact .fail _
        · split
          · rename_i v hconstant
            exact .pure (plainDict_constants.find? hconstant)
          · exact .fail _

theorem keeps_lookupOr (h : R.PlainScopes c) (name : Value) {otherwise : Value}
    (ho : R.Plain otherwise) : R.Keeps (c.lookupOr name otherwise) R.Plain := by
  refine .tryCatch (keeps_lookup h name) fun e => ?_
  split
  · exact .pure ho
  · exact .throw e

/-! ## 2. Writing -/

theorem keeps_setItem {v key value : Value} (hk : R.Plain key) (hv : R.Plain value)
    (hroot : R.Has v) : R.Keeps (Eval.setItem v key value) fun _ => True := by
  unfold Eval.setItem
  refine .bind .get fun s hs => ?_
  split
  · rename_i r
    split
    · exact .set (hs.setDict r ((hs.dicts r hroot).insert _ hk hv)) trivial
    · exact .fail _
  · rename_i r
    split
    · exact .fail _
    · have hposition : ∀ n, R.Keeps
          (Eval.read fun s => wordPosition .assignment n (s.list r).length) fun _ => True :=
        fun n => .read fun _ _ _ _ => trivial
      refine .bind (hposition _) fun i _ => .set (hs.setList r fun w hw => ?_) trivial
      rcases List.mem_or_eq_of_mem_set hw with hw | rfl
      · exact hs.lists r hroot w hw
      · exact hv
  · exact .fail _

theorem keeps_writeRoot (h : R.PlainScopes c) {name value : Value} (hn : R.Plain name)
    (hv : R.Plain value) : R.Keeps (c.writeRoot name value) fun _ => True :=
  keeps_setItem hn hv h.root.1

/-- **Binding a name** keeps all names leading into the region. -/
theorem keeps_write (h : R.PlainScopes c) {name value : Value} (hn : R.Plain name)
    (hv : R.Plain value) : R.Keeps (c.write name value) R.PlainScopes := by
  unfold Scopes.write
  split
  · exact .bind (keeps_writeRoot h hn hv) fun _ _ => .pure h
  · rename_i layer rest hpushed
    refine .bind .get fun s _ => ?_
    split
    · rename_i k _
      have hlayers := h.pushed
      rw [hpushed] at hlayers
      obtain ⟨hlayer, hrest⟩ := List.forall_mem_cons.mp hlayers
      exact .pure ⟨h.root, List.forall_mem_cons.mpr ⟨hlayer.insert k hn hv, hrest⟩⟩
    · exact .fail _

/-! ## 3. Paths -/

theorem keeps_atIndex (segment : String) (within : Subject) {item : Value → Eval Value}
    (hi : ∀ key, R.Keeps (item key) R.Plain) :
    R.Keeps (Eval.atIndex segment within item) R.Plain := by
  unfold Eval.atIndex
  dsimp only
  split
  · refine .bind (.unless (hi _)) fun o ho => ?_
    split
    · exact .pure (ho _ rfl)
    · exact .fail _
  · refine .bind (Q := (· = none)) (.pure rfl) fun o ho => ?_
    rw [ho]
    exact .fail _

/-- The first segment of a path. -/
theorem keeps_scopesSegment (h : R.PlainScopes c) (segment : String) :
    R.Keeps (c.segment segment) R.Plain := by
  unfold Scopes.segment
  refine .bind (.unless (keeps_lookup h _)) fun o ho => ?_
  split
  · exact keeps_settle (ho _ rfl)
  · split
    · exact .make fun s hs => hs.newDict fun e he => absurd he List.not_mem_nil
    · exact .bind (keeps_atIndex _ _ fun key => keeps_lookup h key) fun v hv => keeps_settle hv

/-- A further segment of a path. -/
theorem keeps_segment {v : Value} (hv : R.Has v) (segment : String) :
    R.Keeps (Eval.segment v segment) R.Plain := by
  have hitem : ∀ key, R.Keeps (Eval.read (·.item v key)) R.Plain :=
    fun key => .read fun s w hs hw => hs.item hv hw
  unfold Eval.segment
  refine .bind (.unless (hitem _)) fun o ho => ?_
  split
  · exact keeps_settle (ho _ rfl)
  · refine .bind .get fun s hs => ?_
    split
    · rename_i member hmember
      exact keeps_settle (hs.attribute hv hmember)
    · exact .fail _
    · exact .bind (keeps_atIndex _ _ hitem) fun w hw => keeps_settle hw

/-- **What a path leads to** lies in the region. -/
theorem keeps_path (h : R.PlainScopes c) (segments : List String) :
    R.Keeps (c.path segments) R.Plain := by
  cases segments with
  | nil => exact .pure plain_none
  | cons first rest =>
    exact .bind (keeps_scopesSegment h first) fun v hv =>
      .foldlM hv fun w hw segment _ => keeps_segment hw.1 segment

/-- The value of an operand lies in the region: a constant is a plain text or a number. -/
theorem keeps_resolveOrNone (h : R.PlainScopes c) (o : Operand) :
    R.Keeps (o.resolveOrNone c) R.Plain := by
  have hresolve : R.Keeps (o.resolve c) R.Plain := by
    unfold Operand.resolve
    split
    · exact .pure (plain_text _)
    · exact .pure (plain_int _)
    · exact .pure ⟨trivial, rfl⟩
    · exact keeps_path h _
  refine .bind (.unless hresolve) fun found hfound => .pure ?_
  cases found with
  | none => exact plain_none
  | some v => exact hfound v rfl

end Region
end TextTemplate
