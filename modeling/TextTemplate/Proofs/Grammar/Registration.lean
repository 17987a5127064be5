/-
# What decides whether a filter keeps safe texts safe

The flag of a filter is not kept in the table of the library that it is registered in.  Functions
carry it: the filter's own function and, for a filter on texts, the function that it was made of.
So registrations of one function share their flag, under whatever names and in whatever libraries
they are made, and so do filters on texts that were made of one function.

* `Registration` is a registration in one of several libraries, `Registry.after` what a sequence of
  them leaves;
* `lastFlag?` is the flag that a function has been given last, `lookup_flags_after` says that the
  function carries it;
* `Filter.apply_markup` says how the two flags of a filter mark what it gives for a safe text;
* `Registry.safety_of_registered` puts this together, for every template that uses the filter.
  Registrations that share no function with the filter, and those without a flag, do not matter.

`Registry.flag_changed_elsewhere` is a filter whose output is escaped from the moment at which its
function is registered under another name in another library.

The whole of Mathlib is imported: the examples are run by `cbv`, and the equations of the functions
that they go through come from many of its parts.
-/
import Mathlib
import TextTemplate.Extras.Filters
import TextTemplate.Proofs.Compile.Emission

namespace TextTemplate

open TextTemplate.Outcome

/-! ## 1. Registrations -/

/-- A registration of a filter: the library that it is made in, by its number, how the function is
handed over, and the flag if one is given. -/
structure Registration where
  library : Nat
  form : RegistrationForm
  given : Option String
  filter : Filter
  flag : Option Value

namespace Registration

/-- The name under which the filter is registered, unless the registration is refused. -/
def name? (e : Registration) : Option String :=
  (e.form.registeredName e.given e.filter.name).toOption

/-- The flag that a registration gives to a function. -/
def gives? (e : Registration) (o : FunctionId) : Option Value :=
  if e.name?.isSome ∧ o ∈ e.filter.functions then e.flag else none

/-- The filter that a registration puts under a name in a library. -/
def puts? (e : Registration) (library : Nat) (name : String) : Option Filter :=
  if e.library = library ∧ e.name? = some name then some e.filter else none

/-- Does the registration give a flag to a function of the filter? -/
def concerns (e : Registration) (f : Filter) : Bool := f.functions.any fun o => (e.gives? o).isSome

/-- It does if it is not refused, a flag is given, and the two filters share a function. -/
theorem concerns_iff (e : Registration) {f : Filter} : e.concerns f = true ↔
    e.name?.isSome = true ∧ ∃ v, e.flag = some v ∧ ∃ o ∈ f.functions, o ∈ e.filter.functions := by
  unfold concerns gives?
  rw [List.any_eq_true]
  constructor
  · rintro ⟨o, ho, hgives⟩
    split at hgives
    · rename_i hgiven
      obtain ⟨v, hv⟩ := Option.isSome_iff_exists.mp hgives
      exact ⟨hgiven.1, v, hv, o, ho, hgiven.2⟩
    · cases hgives
  · rintro ⟨hname, v, hv, o, ho, hshared⟩
    exact ⟨o, ho, by simp [hname, hv, hshared]⟩

end Registration

/-- The flag that a function has been given last. -/
def lastFlag? (h : List Registration) (o : FunctionId) : Option Value :=
  (h.filterMap (·.gives? o)).getLast?

/-- The filter that has been put last under a name in a library. -/
def lastFilter? (h : List Registration) (library : Nat) (name : String) : Option Filter :=
  (h.filterMap (·.puts? library name)).getLast?

/-- Libraries, by their numbers, and the flags that functions have been given. -/
structure Registry where
  library : Nat → Library
  flags : Flags

namespace Registry

/-- Before any registration: functions carry the flags that they were made with. -/
def start (libraries : Nat → Library) : Registry := ⟨libraries, []⟩

/-- Carry out a registration.  One that is refused changes nothing. -/
def register (g : Registry) (e : Registration) : Registry :=
  match (g.library e.library).registerFilter g.flags e.form e.given e.filter e.flag with
  | .ok (lib, flags) => ⟨Function.update g.library e.library lib, flags⟩
  | .error _ => g

/-- Carry out registrations one after the other. -/
def after (g : Registry) (h : List Registration) : Registry := h.foldl register g

end Registry

/-! ## 2. Flags and tables -/

section Registering

variable {g : Registry} {e : Registration} {h : List Registration} {o : FunctionId}

/-- **What a registration does**: one that has a name puts the filter there and gives the flag to
its functions, and any other changes nothing. -/
theorem Registry.register_cases (g : Registry) (e : Registration) :
    (∃ name, e.name? = some name ∧ g.register e = ⟨Function.update g.library e.library
      { g.library e.library with
        filters := (g.library e.library).filters.insert name e.filter },
      e.flag.elim g.flags (g.flags.give e.filter)⟩) ∨
    e.name? = none ∧ g.register e = g := by
  unfold Registration.name? register Library.registerFilter
  cases e.form.registeredName e.given e.filter.name with
  | error cause => exact .inr ⟨rfl, rfl⟩
  | ok name =>
    refine .inl ⟨name, rfl, ?_⟩
    cases e.flag with
    | none => rfl
    | some v => rfl

/-- A flag is given to the functions of the filter and to no others. -/
theorem Flags.lookup_give (flags : Flags) (f : Filter) (v : Value) (o : FunctionId) :
    (flags.give f v).lookup o = if o ∈ f.functions then some v else flags.lookup o := by
  have hgiven : ∀ os : List FunctionId,
      (os.map (·, v)).lookup o = if o ∈ os then some v else none := by
    intro os
    induction os with
    | nil => simp
    | cons p os ih =>
      by_cases hp : o = p
      · simp [hp]
      · have hne : (o == p) = false := beq_false_of_ne hp
        simp [List.lookup_cons, hne, hp, ih]
  unfold give
  rw [List.lookup_append, hgiven]
  split <;> simp

theorem Registry.lookup_flags_register (g : Registry) (e : Registration) (o : FunctionId) :
    (g.register e).flags.lookup o = (e.gives? o).or (g.flags.lookup o) := by
  unfold Registration.gives?
  rcases g.register_cases e with ⟨name, hname, hregister⟩ | ⟨hname, hregister⟩
  · rw [hregister, hname]
    cases e.flag with
    | none => simp
    | some v =>
      by_cases ho : o ∈ e.filter.functions <;> simp [Flags.lookup_give, ho]
  · simp [hregister, hname]

/-- What each registration sets anew, or leaves, has been set by the last one that does so. -/
theorem Registry.last_after {α : Type} (read : Registry → Option α)
    (sets? : Registration → Option α)
    (hstep : ∀ g e, read (g.register e) = (sets? e).or (read g)) (g : Registry)
    (h : List Registration) : read (g.after h) = (h.filterMap sets?).getLast?.or (read g) := by
  induction h using List.reverseRecOn with
  | nil => simp [after]
  | append_singleton h e ih =>
    have hlast : g.after (h ++ [e]) = (g.after h).register e := by simp [after]
    rw [hlast, hstep, ih]
    cases hsets : sets? e <;> simp [hsets]

/-- **A function carries the flag that it has been given last.** -/
theorem Registry.lookup_flags_after (g : Registry) (h : List Registration) (o : FunctionId) :
    (g.after h).flags.lookup o = (lastFlag? h o).or (g.flags.lookup o) :=
  last_after (·.flags.lookup o) (·.gives? o) (fun g e => g.lookup_flags_register e o) g h

namespace Table

variable {α : Type}

/-- Writing under one name leaves the others. -/
theorem find?_insert_ne (t : Table α) {name name' : String} (a : α) (h : name ≠ name') :
    (t.insert name a).find? name' = t.find? name' := by
  have hne : (name' == name) = false := beq_false_of_ne (Ne.symm h)
  induction t with
  | nil => simp [insert, find?, List.lookup_cons, hne]
  | cons entry rest ih =>
    obtain ⟨k, b⟩ := entry
    unfold find? at ih ⊢
    by_cases hk : k = name
    · subst hk
      simp [insert, List.lookup_cons, hne]
    · cases hk' : name' == k <;> simp [insert, hk, List.lookup_cons, hk', ih]

end Table

theorem Registry.find?_filters_register (g : Registry) (e : Registration) (library : Nat)
    (name : String) : ((g.register e).library library).filters.find? name =
      (e.puts? library name).or ((g.library library).filters.find? name) := by
  unfold Registration.puts?
  rcases g.register_cases e with ⟨there, hname, hregister⟩ | ⟨hname, hregister⟩
  · rw [hregister, hname]
    by_cases hlibrary : library = e.library
    · subst hlibrary
      by_cases hthere : there = name
      · simp [hthere]
      · simp [hthere, Table.find?_insert_ne]
    · simp [hlibrary, Ne.symm hlibrary]
  · simp [hregister, hname]

/-- **A name in a library stands for the filter that has been put there last.** -/
theorem Registry.find?_filters_after (g : Registry) (h : List Registration) (library : Nat)
    (name : String) : ((g.after h).library library).filters.find? name =
      (lastFilter? h library name).or ((g.library library).filters.find? name) :=
  last_after (fun g => (g.library library).filters.find? name) (·.puts? library name)
    (fun g e => g.find?_filters_register e library name) g h

/-- **Only registrations that give a flag to a function of the filter matter** to the flags of its
functions. -/
theorem lastFlag?_of_concerns {h h' : List Registration} {f : Filter}
    (hsame : h'.filter (·.concerns f) = h.filter (·.concerns f)) (ho : o ∈ f.functions) :
    lastFlag? h' o = lastFlag? h o := by
  have hconcerns : ∀ h : List Registration,
      (h.filter (·.concerns f)).filterMap (·.gives? o) = h.filterMap (·.gives? o) := by
    intro h
    rw [List.filterMap_filter]
    congr 1
    funext e
    cases hgives : e.gives? o with
    | none => simp
    | some v =>
      have he : e.concerns f = true := by
        unfold Registration.concerns
        exact List.any_eq_true.mpr ⟨o, ho, by simp [hgives]⟩
      simp [he]
  unfold lastFlag?
  rw [← hconcerns h', ← hconcerns h, hsame]

end Registering

/-! ## 3. What a filter gives for a safe text -/

/-- Mark a value as safe where a flag says so. -/
def Eval.markBy (flag : Option Value) (v : Value) : Eval Value := do
  if flag.any (← get).truth then Eval.markSafe v else pure v

/-- A text is safe then, or was so before. -/
theorem Eval.markBy_text (flag : Option Value) (t : String) (safe : Bool) (s : Store) :
    Eval.markBy flag (.text t safe) s = .ok (.text t (safe || flag.any s.truth)) s := by
  unfold markBy
  rw [bind_of_ok (get_apply s)]
  cases hflag : flag.any s.truth with
  | false => simp; rfl
  | true => cases safe <;> simp <;> rfl

/-- **A filter on a safe text** gives what its body gives, marked as safe by the flag of the
function that it was made of and by the flag of its own function. -/
theorem Filter.apply_markup (f : Filter) (t : String) (w : Option Value) :
    f.apply (.markup t) w = f.callBody (.markup t :: w.toList) >>=
      Eval.markBy (f.inner.bind (·.safeFlag)) >>= Eval.markBy f.safeFlag := by
  have hcall : f.call (.markup t :: w.toList) = f.callBody (.markup t :: w.toList) >>=
      Eval.markBy (f.inner.bind (·.safeFlag)) := by
    unfold call
    cases hinner : f.inner with
    | none =>
      have honText : ¬f.onText = true := by simp [onText, hinner]
      have hmark : Eval.markBy none = pure := by
        funext v
        rfl
      rw [if_neg honText, Option.bind_none, hmark, bind_pure]
    | some g =>
      have honText : f.onText = true := by simp [onText, hinner]
      rw [if_pos honText]
      simp only [argumentText, pure_bind, isSafe, innerKeepsSafe, hinner, Bool.true_and]
      rfl
  unfold apply
  rw [hcall]
  simp only [isSafe, keepsSafe, Bool.and_true]
  rfl

/-! ## 4. Templates -/

/-- A grammar with the flags that the functions of its filters carry now. -/
def Grammar.flagged (g : Grammar) (flags : Flags) : Grammar :=
  { g with filters := flags.onTable g.filters }

/-- An engine with the flags that the functions of its filters carry now. -/
def Engine.flagged (engine : Engine) (flags : Flags) : Engine :=
  { engine with grammar := engine.grammar.flagged flags }

/-- Replaced tables with the flags that the functions of their filters carry now. -/
def Overrides.flagged (o : Overrides) (flags : Flags) : Overrides :=
  { o with filters := o.filters.map flags.onTable }

/-- A template with the flags that the functions of its filters carry now, and so the templates that
it renders in turn. -/
def Template.flagged (t : Template) (flags : Flags) : Template :=
  { t with engine := t.engine.flagged flags, grammar := t.grammar.flagged flags }

theorem Flags.find?_onTable (flags : Flags) (filters : Table Filter) (name : String) :
    (flags.onTable filters).find? name = (filters.find? name).map (·.flagged flags) := by
  unfold onTable Table.find?
  induction filters with
  | nil => simp
  | cons e rest ih =>
    obtain ⟨k, f⟩ := e
    cases hname : name == k <;> simp [List.lookup_cons, hname, ih]

theorem Grammar.clone_flagged (g : Grammar) (o : Overrides) (flags : Flags) :
    (g.flagged flags).clone (o.flagged flags) = (fun g => g.flagged flags) <$> g.clone o := by
  have hfilters : (o.flagged flags).filters.getD (g.flagged flags).filters =
      flags.onTable (o.filters.getD g.filters) := by
    cases hfilters : o.filters <;> simp [Overrides.flagged, Grammar.flagged, hfilters]
  unfold clone
  rw [hfilters]
  simp only [map_bind, map_pure]
  rfl

/-- A source with a text is compiled to a program or refused, in a grammar that can be cloned. -/
theorem Template.compile_of_clone {engine : Engine} (name : Option String) {source : Value}
    {o : Overrides} {s s₁ s₂ : Store} {text : String} {g : Grammar}
    (htext : Eval.text source s = .ok text s₁) (hclone : engine.grammar.clone o s₁ = .ok g s₂) :
    compile engine name source o s =
      match Compile.program g.tags (g.delimiters.tokens text) (.start s₂) with
      | .ok program c =>
        .ok ⟨name, engine, text, g, program, c.references.reverse.eraseDups⟩ c.store
      | .error e c => .error (placeSyntax engine text name c.store e) c.store :=
  (bind_of_ok htext).trans (bind_of_ok hclone)

/-- **It does not matter when a template is compiled**: compiled under the flags that its filters
carry now, it is the template that has been compiled before, with the flags of now. -/
theorem Template.compile_flagged (engine : Engine) (name : Option String) (source : Value)
    (o : Overrides) (flags : Flags) :
    compile (engine.flagged flags) name source (o.flagged flags) =
      (fun t => t.flagged flags) <$> compile engine name source o := by
  funext s
  cases htext : Eval.text source s with
  | error e s₁ =>
    have hfails : compile engine name source o s = .error e s₁ := bind_of_error htext
    rw [map_of_error hfails]
    exact bind_of_error htext
  | ok text s₁ =>
    have hclone : (engine.flagged flags).grammar.clone (o.flagged flags) s₁ =
        ((fun g => g.flagged flags) <$> engine.grammar.clone o) s₁ := by
      rw [← Grammar.clone_flagged]
      rfl
    cases hg : engine.grammar.clone o s₁ with
    | error e s₂ =>
      have hfails : compile engine name source o s = .error e s₂ :=
        (bind_of_ok htext).trans (bind_of_error hg)
      rw [map_of_error hg] at hclone
      rw [map_of_error hfails]
      exact (bind_of_ok htext).trans (bind_of_error hclone)
    | ok g s₂ =>
      rw [map_of_ok hg] at hclone
      have hprogram := compile_of_clone name htext hg
      rw [compile_of_clone name htext hclone]
      -- the program is compiled with the tags and the delimiters alone
      have hsame : Compile.program (g.flagged flags).tags
          ((g.flagged flags).delimiters.tokens text) (.start s₂) =
            Compile.program g.tags (g.delimiters.tokens text) (.start s₂) := rfl
      rw [hsame]
      cases hp : Compile.program g.tags (g.delimiters.tokens text) (.start s₂) with
      | error e c =>
        rw [hp] at hprogram
        rw [map_of_error hprogram]
        rfl
      | ok program c =>
        rw [hp] at hprogram
        rw [map_of_ok hprogram]
        rfl

/-! ## 5. Registered filters -/

namespace Filter

/-- The function that a filter was made of is one of its functions. -/
theorem innerFunction_mem {f : Filter} {g : InnerFunction} (h : f.inner = some g) :
    (⟨f.name, g.number⟩ : FunctionId) ∈ f.functions := by
  simp [functions, innerFunction?, h]

/-- The flag that the filter's own function carries behind some registrations: the last one given to
it, or else the one that it was made with. -/
def flagBehind (f : Filter) (h : List Registration) : Option Value :=
  (lastFlag? h f.function).or f.safeFlag

/-- The flag that the function carries then of which the filter was made, if there is one. -/
def innerFlagBehind (f : Filter) (h : List Registration) : Option Value :=
  f.inner.bind fun g => (lastFlag? h ⟨f.name, g.number⟩).or g.safeFlag

/-- Does the filter keep safe texts safe behind some registrations? -/
def keepsSafeBehind (f : Filter) (h : List Registration) (s : Store) : Bool :=
  (f.flagBehind h).any s.truth || (f.innerFlagBehind h).any s.truth

end Filter

namespace Registry

variable {libraries : Nat → Library} {h : List Registration} {f : Filter}

/-- The functions of a filter carry the flags that they have been given last. -/
theorem flagged_after (libraries : Nat → Library) (h : List Registration) (f : Filter) :
    (f.flagged ((start libraries).after h).flags).safeFlag = f.flagBehind h ∧
      (f.flagged ((start libraries).after h).flags).inner.bind (·.safeFlag) =
        f.innerFlagBehind h := by
  have hlast : ∀ o, ((start libraries).after h).flags.lookup o = lastFlag? h o := by
    intro o
    rw [lookup_flags_after]
    simp [start]
  unfold Filter.flagged Filter.flagBehind Filter.innerFlagBehind
  simp only [hlast]
  cases f.inner <;> simp

/-- A filter in a template is applied with the flags that its functions carry. -/
theorem applyFilter_flagged {t : Template} {name : String}
    (hused : t.grammar.filters.find? name = some f) (flags : Flags) (c : Scopes) (v : Value)
    (argument : Option Operand) :
    Expression.applyFilter (t.flagged flags).grammar.filters c v ⟨name, argument⟩ =
      argument.mapM (·.resolveOrNone c) >>= fun w => (f.flagged flags).apply v w := by
  have hfind : (t.flagged flags).grammar.filters.find? name = some (f.flagged flags) := by
    have htable := flags.find?_onTable t.grammar.filters name
    rwa [hused] at htable
  unfold Expression.applyFilter
  rw [hfind]

/-- **A safe text in a registered filter.** -/
theorem apply_after (libraries : Nat → Library) (h : List Registration) (f : Filter)
    (markup : String) (w : Option Value) :
    (f.flagged ((start libraries).after h).flags).apply (.markup markup) w =
      f.callBody (.markup markup :: w.toList) >>= Eval.markBy (f.innerFlagBehind h) >>=
        Eval.markBy (f.flagBehind h) := by
  obtain ⟨hown, hinner⟩ := flagged_after libraries h f
  rw [Filter.apply_markup, hown, hinner]
  rfl

/-- Registrations that concern the filter alike leave it with the same flags. -/
theorem flagged_of_concerns {libraries libraries' : Nat → Library} {h h' : List Registration}
    {f : Filter} (hsame : h'.filter (·.concerns f) = h.filter (·.concerns f)) :
    f.flagged ((start libraries').after h').flags =
      f.flagged ((start libraries).after h).flags := by
  have hlookup : ∀ o ∈ f.functions, ((start libraries').after h').flags.lookup o =
      ((start libraries).after h).flags.lookup o := by
    intro o ho
    rw [lookup_flags_after, lookup_flags_after, lastFlag?_of_concerns hsame ho]
    rfl
  have hown := hlookup f.function List.mem_cons_self
  unfold Filter.flagged
  rw [hown]
  cases hinner : f.inner with
  | none => rfl
  | some g => simp [hlookup _ (Filter.innerFunction_mem hinner)]

/-- Where one registration alone gives a flag to the functions of the filter, that flag decides. -/
theorem keepsSafeBehind_of_single {e : Registration} (hsingle : h.filter (·.concerns f) = [e])
    (hfilter : e.filter = f) (s : Store) :
    f.keepsSafeBehind h s = e.flag.any s.truth := by
  have hmem : e ∈ h.filter (·.concerns f) := by simp [hsingle]
  have hconcerns : e.concerns f = true := (List.mem_filter.mp hmem).2
  obtain ⟨hnamed, v, hv, -⟩ := e.concerns_iff.mp hconcerns
  have hlast : ∀ o ∈ f.functions, lastFlag? h o = some v := by
    intro o ho
    have hsame : [e].filter (·.concerns f) = h.filter (·.concerns f) := by simp [hsingle, hconcerns]
    rw [← lastFlag?_of_concerns hsame ho]
    simp [lastFlag?, Registration.gives?, hnamed, hfilter, ho, hv]
  have hown : f.flagBehind h = some v := by
    simp [Filter.flagBehind, hlast f.function List.mem_cons_self]
  unfold Filter.keepsSafeBehind Filter.innerFlagBehind
  rw [hown, hv]
  cases hinner : f.inner with
  | none => simp
  | some g => simp [hlast _ (Filter.innerFunction_mem hinner)]

/-- **Whether a registered filter keeps safe texts safe** is decided by the flags that its functions
have been given last, in any template that has the filter under its name.

The filter is the one that was registered last under the name in the library.  What it gives for a
safe text is what its body gives, marked as safe by the last flag that the function it was made of
has been given, and by the last flag that its own function has been given; so a text that the body
gives is safe if it was safe before or one of these flags says so.  A flag that is the only one
given to these functions decides alone.  No other registration matters, in whatever library: where
the registrations that give a flag to one of the functions are the same, the filter does the same
to every value. -/
theorem safety_of_registered (libraries : Nat → Library) (h : List Registration) {t : Template}
    {library : Nat} {name : String} {f : Filter}
    (hregistered : (((start libraries).after h).library library).filters.find? name = some f)
    (hused : t.grammar.filters.find? name = some f) :
    (lastFilter? h library name).or ((libraries library).filters.find? name) = some f ∧
    (∀ (c : Scopes) (markup : String) (argument : Option Operand),
      Expression.applyFilter (t.flagged ((start libraries).after h).flags).grammar.filters c
          (.markup markup) ⟨name, argument⟩ =
        argument.mapM (·.resolveOrNone c) >>= fun w =>
          f.callBody (.markup markup :: w.toList) >>= Eval.markBy (f.innerFlagBehind h) >>=
            Eval.markBy (f.flagBehind h)) ∧
    (∀ (c : Scopes) (markup : String) (argument : Option Operand) (s s₁ s₂ : Store)
        (w : Option Value) (u : String) (safe : Bool),
      argument.mapM (·.resolveOrNone c) s = .ok w s₁ →
      f.callBody (.markup markup :: w.toList) s₁ = .ok (.text u safe) s₂ →
      Expression.applyFilter (t.flagged ((start libraries).after h).flags).grammar.filters c
          (.markup markup) ⟨name, argument⟩ s =
        .ok (.text u (safe || f.keepsSafeBehind h s₂)) s₂) ∧
    (∀ e : Registration, h.filter (·.concerns f) = [e] → e.filter = f →
      ∀ s, f.keepsSafeBehind h s = e.flag.any s.truth) ∧
    (∀ (libraries' : Nat → Library) (h' : List Registration),
      h'.filter (·.concerns f) = h.filter (·.concerns f) →
      ∀ (c : Scopes) (v : Value) (argument : Option Operand),
        Expression.applyFilter (t.flagged ((start libraries').after h').flags).grammar.filters c v
            ⟨name, argument⟩ =
          Expression.applyFilter (t.flagged ((start libraries).after h).flags).grammar.filters c v
            ⟨name, argument⟩) := by
  have happly : ∀ (c : Scopes) (markup : String) (argument : Option Operand),
      Expression.applyFilter (t.flagged ((start libraries).after h).flags).grammar.filters c
          (.markup markup) ⟨name, argument⟩ =
        argument.mapM (·.resolveOrNone c) >>= fun w =>
          f.callBody (.markup markup :: w.toList) >>= Eval.markBy (f.innerFlagBehind h) >>=
            Eval.markBy (f.flagBehind h) := by
    intro c markup argument
    rw [applyFilter_flagged hused]
    simp only [apply_after]
  refine ⟨?_, happly, ?_, fun e => keepsSafeBehind_of_single, ?_⟩
  · rw [← hregistered, find?_filters_after]
    rfl
  · intro c markup argument s s₁ s₂ w u safe hargument hbody
    have hmarked := (bind_of_ok hbody).trans (Eval.markBy_text (f.innerFlagBehind h) u safe s₂)
    rw [happly, bind_of_ok hargument, bind_of_ok hmarked, Eval.markBy_text]
    unfold Filter.keepsSafeBehind
    rw [Bool.or_assoc, Bool.or_comm ((f.flagBehind h).any s₂.truth)]
  · intro libraries' h' hsame c v argument
    rw [applyFilter_flagged hused, applyFilter_flagged hused, flagged_of_concerns hsame]

/-! ## 6. Functions that are registered more than once -/

/-- A function that writes its value behind its name, registered in library 0 as one that keeps safe
texts safe. -/
def keepingOnce : List Registration :=
  [⟨0, .direct, some "keeps", .tagged "f" false, some (.bool true)⟩]

/-- The same function is then registered in library 1 as well, as one that does not. -/
def keepingTwice : List Registration :=
  keepingOnce ++ [⟨1, .direct, some "other", .tagged "f" false, some (.bool false)⟩]

/-- The function, made to work on texts twice, and registered by itself at last: one filter is
registered as keeping safe texts safe, the other one as not, and the function as keeping them. -/
def keepingMade : List Registration :=
  [⟨0, .direct, some "keeps", (Filter.tagged "f" false).forTexts 3, some (.bool true)⟩,
    ⟨1, .keyword, some "other", (Filter.tagged "f" false).forTexts 4, some (.bool false)⟩,
    ⟨1, .bare, none, .tagged "f" false, some (.bool true)⟩]

/-- What the registrations leave, where the libraries were empty. -/
def behind (h : List Registration) : Registry := (start fun _ => .empty).after h

/-- The usual engine with a library that the registrations leave, before any flag is given. -/
def engineBehind (h : List Registration) (library : Nat) : Engine :=
  { Engine.standard with grammar := Grammar.standard.withLibrary ((behind h).library library) }

/-- A source that shows a value through a filter. -/
def filterSource (name : String) : Value := .plain ("\x7b\x7b s|" ++ name ++ " \x7d\x7d")

/-- A context in which `s` is a safe text. -/
def markupContext : Context := ⟨.ofRoot (.dict 0), some ⟨.bool true, none, none⟩⟩

/-- The store of that context. -/
def markupStore : Store :=
  { Store.empty with dicts := #[Dict.ofBindings [("s", .markup "<i>")]] }

/-- What a source gives in that context, if it compiles. -/
def shownBy (engine : Engine) (source : Value) : Option (Option Value) :=
  match Template.compile engine none source .empty .empty with
  | .ok t _ => some (t.render markupContext markupStore).1.toOption
  | .error .. => none

/-- What it gives, compiled under the flags of now, is what the template gives then that has been
compiled before. -/
theorem exists_of_shownBy {engine : Engine} {flags : Flags} {source v : Value}
    (hshown : shownBy (engine.flagged flags) source = some (some v)) :
    ∃ t s, Template.compile engine none source .empty .empty = .ok t s ∧
      ((t.flagged flags).render markupContext markupStore).1.toOption = some v := by
  have hflagged := congrFun (Template.compile_flagged engine none source .empty flags) .empty
  have hempty : Overrides.empty.flagged flags = .empty := rfl
  rw [hempty] at hflagged
  unfold shownBy at hshown
  rw [hflagged] at hshown
  cases hcompile : Template.compile engine none source .empty .empty with
  | error e s =>
    rw [map_of_error hcompile] at hshown
    cases hshown
  | ok t s =>
    rw [map_of_ok hcompile] at hshown
    exact ⟨t, s, rfl, Option.some.inj hshown⟩

/-- A filter that was registered as not keeping safe texts safe keeps them so, because the function
that it was made of has been registered as keeping them. -/
theorem safety_of_registered_made : ∃ t s,
    Template.compile (engineBehind keepingMade 1) none (filterSource "other") .empty .empty =
      .ok t s ∧
    ((behind keepingMade).library 1).filters.find? "other" =
      some ((Filter.tagged "f" false).forTexts 4) ∧
    t.grammar.filters.find? "other" = some ((Filter.tagged "f" false).forTexts 4) ∧
    ((Filter.tagged "f" false).forTexts 4).flagBehind keepingMade = some (.bool false) ∧
    ((Filter.tagged "f" false).forTexts 4).innerFlagBehind keepingMade = some (.bool true) ∧
    Expression.applyFilter (t.flagged (behind keepingMade).flags).grammar.filters
        markupContext.scopes (.markup "<i>") ⟨"other", none⟩ markupStore =
      .ok (.markup "<f:<i>>") markupStore ∧
    ((t.flagged (behind keepingMade).flags).render markupContext markupStore).1.toOption =
      some (.markup "<f:<i>>") := by
  have hshown : shownBy ((engineBehind keepingMade 1).flagged (behind keepingMade).flags)
      (filterSource "other") = some (some (.markup "<f:<i>>")) := by cbv
  obtain ⟨t, s, hcompile, hrender⟩ := exists_of_shownBy hshown
  have hgrammar := (Template.grammar_of_compile hcompile).2
  have hregistered : ((behind keepingMade).library 1).filters.find? "other" =
      some ((Filter.tagged "f" false).forTexts 4) := rfl
  have hused : t.grammar.filters.find? "other" =
      some ((Filter.tagged "f" false).forTexts 4) := by
    rw [hgrammar]
    rfl
  have hbody : ((Filter.tagged "f" false).forTexts 4).callBody [.markup "<i>"] markupStore =
      .ok (.plain "<f:<i>>") markupStore := by cbv
  obtain ⟨-, -, htext, -⟩ :=
    safety_of_registered (fun _ => .empty) keepingMade hregistered hused
  have happly := htext markupContext.scopes "<i>" none _ _ _ none "<f:<i>>" false rfl hbody
  exact ⟨t, s, hcompile, hregistered, hused, rfl, rfl, happly, hrender⟩

/-- **A flag that is changed elsewhere.**  The output of a template is not escaped, as its filter
was registered to keep safe texts safe.  Then the function is registered in another library under
another name, and the output of the template is escaped; in the library of the filter nothing has
changed. -/
theorem flag_changed_elsewhere : ∃ t s,
    Template.compile (engineBehind keepingOnce 0) none (filterSource "keeps") .empty .empty =
      .ok t s ∧
    (behind keepingTwice).library 0 = (behind keepingOnce).library 0 ∧
    ((t.flagged (behind keepingOnce).flags).render markupContext markupStore).1.toOption =
      some (.markup "<f:<i>>") ∧
    ((t.flagged (behind keepingTwice).flags).render markupContext markupStore).1.toOption =
      some (.markup "&lt;f:&lt;i&gt;&gt;") := by
  have honce : shownBy ((engineBehind keepingOnce 0).flagged (behind keepingOnce).flags)
      (filterSource "keeps") = some (some (.markup "<f:<i>>")) := by cbv
  have htwice : shownBy ((engineBehind keepingOnce 0).flagged (behind keepingTwice).flags)
      (filterSource "keeps") = some (some (.markup "&lt;f:&lt;i&gt;&gt;")) := by cbv
  obtain ⟨t, s, hcompile, hrender⟩ := exists_of_shownBy honce
  obtain ⟨t', s', hcompile', hrender'⟩ := exists_of_shownBy htwice
  cases hcompile.symm.trans hcompile'
  exact ⟨t, s, hcompile, rfl, hrender, hrender'⟩

end Registry

end TextTemplate
