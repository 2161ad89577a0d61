/-
What a command line does to the environment of the engine.

Arguments that are read to their end can be followed by others (`parseArgs_append`), so a command
line is read block by block.  `Gives` says what a block does to a variable.
-/
import Aether.Engine.Cli

namespace Aether.Engine

open List

namespace Environment

variable {env : Environment} {key other : String} {value : Text}

@[simp] theorem set_same : env.set key value key = some value := by
  unfold set
  exact Function.update_self key (some value) env

theorem set_other (h : other ≠ key) : env.set key value other = env other := by
  unfold set
  exact Function.update_of_ne h (some value) env

end Environment

/-! ### Blocks of arguments -/

section Parse

variable {env env' : Environment} {args : List Text} {flag : String} {value : Text}

theorem parseArgs_set {values : List (String × String)} (h : operationOf flag = some (.set values))
    (rest : List Text) :
    parseArgs env (flag.toList :: rest) =
      parseArgs (values.foldl (fun e (key, value) => e.set key value.toList) env) rest := by
  rw [parseArgs, String.ofList_toList, h]

theorem parseArgs_setNext {keys : List String} (h : operationOf flag = some (.setNext keys))
    (rest : List Text) :
    parseArgs env (flag.toList :: value :: rest) =
      parseArgs (keys.foldl (fun e key => e.set key value) env) rest := by
  rw [parseArgs, String.ofList_toList, h]

theorem parseArgs_appendNext {key : String} (h : operationOf flag = some (.appendNext key))
    (rest : List Text) :
    parseArgs env (flag.toList :: value :: rest) = parseArgs (env.append key value) rest := by
  rw [parseArgs, String.ofList_toList, h]

/-- What was read to its end can be followed by more. -/
theorem parseArgs_append (h : parseArgs env args = .ok (.run, env')) (rest : List Text) :
    parseArgs env (args ++ rest) = parseArgs env' rest := by
  fun_induction parseArgs env args with
  | case1 env =>
    cases h
    rfl
  | case2 env arg args hop => exact nomatch h
  | case3 env arg args hop => exact nomatch h
  | case4 env arg args values hop ih =>
    rw [cons_append, parseArgs, hop]
    exact ih h
  | case5 env arg keys hop => exact nomatch h
  | case6 env arg keys hop value args ih =>
    rw [cons_append, cons_append, parseArgs, hop]
    exact ih h
  | case7 env arg key hop => exact nomatch h
  | case8 env arg key hop value args ih =>
    rw [cons_append, cons_append, parseArgs, hop]
    exact ih h

end Parse

/-- The arguments are read to their end, and do this to a variable. -/
def Gives (key : String) (f : Option Text → Option Text) (args : List Text) : Prop :=
  ∀ env, ∃ env', parseArgs env args = .ok (.run, env') ∧ env' key = f (env key)

namespace Gives

variable {key flag : String} {f : Option Text → Option Text} {args args' : List Text}

theorem append {g : Option Text → Option Text} (h : Gives key f args) (h' : Gives key g args') :
    Gives key (fun old => g (f old)) (args ++ args') := by
  intro env
  obtain ⟨env₁, hparse, hgives⟩ := h env
  obtain ⟨env₂, hparse', hgives'⟩ := h' env₁
  refine ⟨env₂, (parseArgs_append hparse args').trans hparse', ?_⟩
  rw [hgives', hgives]

theorem setNext (h : operationOf flag = some (.setNext [key])) (value : Text) :
    Gives key (fun _ => some value) [flag.toList, value] :=
  fun _ => ⟨_, parseArgs_setNext h [], Environment.set_same⟩

theorem appendNext (h : operationOf flag = some (.appendNext key)) (value : Text) :
    Gives key (fun old => some (Environment.appended old value)) [flag.toList, value] :=
  fun _ => ⟨_, parseArgs_appendNext h [], Environment.set_same⟩

/-- An option that is given once for each of these values. -/
theorem flatMap {g : Option Text → Text → Option Text}
    (h : ∀ value, Gives key (g · value) [flag.toList, value]) (values : List Text) :
    Gives key (fun old => values.foldl g old)
      (values.flatMap fun value => [flag.toList, value]) := by
  induction values with
  | nil => exact fun env => ⟨env, rfl, rfl⟩
  | cons value values ih => exact (h value).append ih

theorem set {value : String} (h : operationOf flag = some (.set [(key, value)])) :
    Gives key (fun _ => some value.toList) [flag.toList] :=
  fun _ => ⟨_, parseArgs_set h [], Environment.set_same⟩

/-! ### What is left alone -/

theorem nil (key : String) : Gives key id [] := fun env => ⟨env, rfl, rfl⟩

/-- More arguments, that leave the variable alone. -/
theorem keep (h : Gives key f args) (h' : Gives key id args') : Gives key f (args ++ args') :=
  h.append h'

theorem ite (h : Gives key id args) (c : Prop) [Decidable c] :
    Gives key id (if c then args else []) := by
  split
  · exact h
  · exact nil key

theorem set_other {other value : String} (h : operationOf flag = some (.set [(other, value)]))
    (hkey : key ∉ [other]) : Gives key id [flag.toList] :=
  fun _ => ⟨_, parseArgs_set h [], Environment.set_other fun heq => hkey (mem_singleton.mpr heq)⟩

theorem setNext_other {keys : List String} (h : operationOf flag = some (.setNext keys))
    (hkey : key ∉ keys) (value : Text) : Gives key id [flag.toList, value] := by
  intro env
  refine ⟨_, parseArgs_setNext h [], ?_⟩
  clear h
  induction keys generalizing env with
  | nil => rfl
  | cons other keys ih =>
    rw [mem_cons, not_or] at hkey
    rw [foldl_cons, ih hkey.2]
    exact Environment.set_other hkey.1

theorem appendNext_other {other : String} (h : operationOf flag = some (.appendNext other))
    (hkey : key ∉ [other]) (values : List Text) :
    Gives key id (values.flatMap fun value => [flag.toList, value]) := by
  induction values with
  | nil => exact nil key
  | cons value values ih =>
    have hone : Gives key id [flag.toList, value] := fun _ =>
      ⟨_, parseArgs_appendNext h [], Environment.set_other fun heq => hkey (mem_singleton.mpr heq)⟩
    exact hone.keep ih

end Gives

end Aether.Engine
