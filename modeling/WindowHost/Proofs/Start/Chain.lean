import Mathlib.Data.List.Range
import WindowHost.LaunchParams

/-! One run of the layout modifiers. They are asked in their order, each about what the latest
answer before it has made of the parameters, until one settles them, so that modifiers which have
nothing to say, or stand behind one that always settles, may as well be missing. -/
namespace WindowHost
variable {chain ms : List Modifier} {request : LayoutRequest} {index : ℕ}
  {initial current params result : LaunchParams} {calls : List ModifierCall}

/-- The parameters that an answer hands on, if it is no skip. -/
def Refinement.params? : Refinement → Option LaunchParams
  | .skip => none
  | .adjust params => some params
  | .settle params => some params

/-- The chain's answer to a question. -/
def ModifierCall.answer? (chain : List Modifier) (call : ModifierCall) : Option Refinement :=
  chain[call.index]?.map fun m => m call.request call.current

/-- What the latest answer that is no skip has made of the parameters. -/
def paramsAfter (chain : List Modifier) (initial : LaunchParams) (calls : List ModifierCall) :
    LaunchParams :=
  (calls.filterMap fun call => (call.answer? chain).bind Refinement.params?).getLast?.getD initial

def ModifierCall.Settles (chain : List Modifier) (call : ModifierCall) : Prop :=
  ∃ params, call.answer? chain = some (.settle params)

/-- The questions of one run, of the modifiers from the one at `index` on, and what it comes to. -/
structure ConsultedFrom (chain : List Modifier) (request : LayoutRequest) (initial : LaunchParams)
    (index : ℕ) (calls : List ModifierCall) (result : LaunchParams) : Prop where
  /-- One modifier after the other is asked, in the order of the chain. -/
  order : calls.map ModifierCall.index = List.range' index calls.length
  request : ∀ call ∈ calls, call.request = request
  sees : ∀ before call after, calls = before ++ call :: after →
    call.current = paramsAfter chain initial before
  /-- A modifier that settles the parameters is the last to be asked. -/
  settled : ∀ before call after, calls = before ++ call :: after → call.Settles chain → after = []
  /-- Where none settles them, all are asked. -/
  whole : (∀ call ∈ calls, ¬ call.Settles chain) → index + calls.length = chain.length
  result : result = paramsAfter chain initial calls

/-- The questions of one run of a whole chain, and what it comes to. -/
abbrev Consulted (chain : List Modifier) (request : LayoutRequest) (initial : LaunchParams)
    (calls : List ModifierCall) (result : LaunchParams) : Prop :=
  ConsultedFrom chain request initial 0 calls result

theorem paramsAfter_cons (call : ModifierCall) :
    paramsAfter chain initial (call :: calls) =
      paramsAfter chain (((call.answer? chain).bind Refinement.params?).getD initial) calls := by
  unfold paramsAfter
  cases answer : (call.answer? chain).bind Refinement.params? with
  | none => simp [answer]
  | some params => simp [answer, List.getLast?_cons]

theorem consultedFrom_nil (done : index = chain.length) :
    ConsultedFrom chain request current index [] current where
  order := rfl
  request := by simp
  sees := by simp
  settled := by simp
  whole _ := done
  result := rfl

/-- The run that begins with a question is the one that goes on behind it. -/
theorem ConsultedFrom.cons {call : ModifierCall} {answer : Refinement}
    (asked : call = { index := index, request := request, current := current })
    (answered : call.answer? chain = some answer) (goesOn : ∀ params, answer ≠ .settle params)
    (rest : ConsultedFrom chain request (answer.params?.getD current) (index + 1) calls result) :
    ConsultedFrom chain request current index (call :: calls) result := by
  have onward : ∀ later, paramsAfter chain current (call :: later) =
      paramsAfter chain (answer.params?.getD current) later := by
    intro later
    rw [paramsAfter_cons, answered]
    rfl
  have unsettled : ¬ call.Settles chain := by
    rintro ⟨params, settles⟩
    rw [answered, Option.some.injEq] at settles
    exact goesOn params settles
  refine ⟨?_, ?_, ?_, ?_, ?_, ?_⟩
  · rw [List.map_cons, rest.order, asked, List.length_cons, List.range'_succ]
  · rw [List.forall_mem_cons, asked]
    exact ⟨rfl, rest.request⟩
  · intro before other after split
    cases before with
    | nil =>
      obtain ⟨rfl, rfl⟩ := List.cons.inj split
      rw [asked]
      rfl
    | cons first before =>
      obtain ⟨rfl, rfl⟩ := List.cons.inj split
      rw [onward]
      exact rest.sees before other after rfl
  · intro before other after split settles
    cases before with
    | nil =>
      obtain ⟨rfl, rfl⟩ := List.cons.inj split
      exact absurd settles unsettled
    | cons first before =>
      obtain ⟨rfl, rfl⟩ := List.cons.inj split
      exact rest.settled before other after rfl settles
  · intro unsettled
    have all := rest.whole fun other member => unsettled other (List.mem_cons_of_mem _ member)
    rw [List.length_cons]
    omega
  · rw [onward]
    exact rest.result

theorem consultedFrom_settle {call : ModifierCall}
    (asked : call = { index := index, request := request, current := current })
    (answered : call.answer? chain = some (.settle params)) :
    ConsultedFrom chain request current index [call] params := by
  refine ⟨?_, ?_, ?_, ?_, ?_, ?_⟩
  · rw [List.map_singleton, asked]
    rfl
  · rw [List.forall_mem_singleton, asked]
  · intro before other after split
    obtain ⟨rfl, rfl, rfl⟩ : before = [] ∧ other = call ∧ after = [] := by
      cases before <;> simp_all
    rw [asked]
    rfl
  · intro before other after split settles
    cases before <;> simp_all
  · intro unsettled
    exact absurd ⟨params, answered⟩ (unsettled call List.mem_cons_self)
  · rw [paramsAfter_cons, answered]
    rfl

theorem consultedFrom_refineFrom (rest : chain.drop index = ms) (current : LaunchParams)
    (within : index ≤ chain.length) :
    ConsultedFrom chain request current index (refineFrom request current index ms).2
      (refineFrom request current index ms).1 := by
  induction ms generalizing index current with
  | nil =>
    have past : chain.length ≤ index := List.drop_eq_nil_iff.mp rest
    exact consultedFrom_nil (Nat.le_antisymm within past)
  | cons m ms ih =>
    have here : chain[index]? = some m := by
      rw [← List.head?_drop, rest, List.head?_cons]
    have further : chain.drop (index + 1) = ms := by
      rw [← List.tail_drop, rest, List.tail_cons]
    have bound : index + 1 ≤ chain.length := (List.getElem?_eq_some_iff.mp here).1
    have answered : ∀ answer, m request current = answer →
        ModifierCall.answer? chain ⟨index, request, current⟩ = some answer := by
      rintro _ rfl
      rw [ModifierCall.answer?, here, Option.map_some]
    rw [refineFrom]
    cases answer : m request current with
    | skip =>
      exact .cons rfl (answered _ answer) (fun _ => nofun) (ih further current bound)
    | adjust params =>
      exact .cons rfl (answered _ answer) (fun _ => nofun) (ih further params bound)
    | settle params => exact consultedFrom_settle rfl (answered _ answer)

theorem consulted_refine (chain : List Modifier) (request : LayoutRequest)
    (initial : LaunchParams) :
    Consulted chain request initial (refine chain request initial).2
      (refine chain request initial).1 :=
  consultedFrom_refineFrom rfl initial (Nat.zero_le _)

/-- The second chain lacks one modifier of the first one, which never has anything to say, or stands
behind one that settles the parameters every time. -/
inductive Forgoes : List Modifier → List Modifier → Prop where
  | silent {early late : List Modifier} {m : Modifier}
      (skips : ∀ request current, m request current = .skip) :
      Forgoes (early ++ m :: late) (early ++ late)
  | behind {early between late : List Modifier} {last m : Modifier}
      (settles : ∀ request current, ∃ params, last request current = .settle params) :
      Forgoes (early ++ last :: between ++ m :: late) (early ++ last :: between ++ late)

/-- Behind the same modifiers, two chains that come to the same come to the same still, wherever
their modifiers stand. -/
theorem fst_refineFrom_append {ms' : List Modifier}
    (same : ∀ current index index',
      (refineFrom request current index ms).1 = (refineFrom request current index' ms').1)
    (early : List Modifier) (current : LaunchParams) (index index' : ℕ) :
    (refineFrom request current index (early ++ ms)).1 =
      (refineFrom request current index' (early ++ ms')).1 := by
  induction early generalizing current index index' with
  | nil => exact same ..
  | cons m early ih =>
    rw [List.cons_append, List.cons_append, refineFrom, refineFrom]
    cases m request current with
    | skip => exact ih ..
    | adjust params => exact ih ..
    | settle params => rfl

/-- Where a modifier stands is of no matter to the result. -/
theorem fst_refineFrom_index (ms : List Modifier) (current : LaunchParams) (index index' : ℕ) :
    (refineFrom request current index ms).1 = (refineFrom request current index' ms).1 := by
  have bare : ∀ current index index', (refineFrom request current index []).1 =
      (refineFrom request current index' []).1 := fun _ _ _ => rfl
  have same := fst_refineFrom_append bare ms current index index'
  rwa [List.append_nil] at same

theorem Forgoes.refine_eq {chain' : List Modifier} (forgoes : Forgoes chain chain')
    (request : LayoutRequest) (initial : LaunchParams) :
    (refine chain' request initial).1 = (refine chain request initial).1 := by
  unfold refine
  cases forgoes with
  | @silent early late m skips =>
    refine fst_refineFrom_append (fun current index index' => ?_) early initial 0 0
    rw [refineFrom, skips request current]
    exact fst_refineFrom_index ..
  | @behind early between late last m settles =>
    rw [List.append_assoc, List.append_assoc]
    refine fst_refineFrom_append (fun current index index' => ?_) early initial 0 0
    obtain ⟨params, settled⟩ := settles request current
    rw [List.cons_append, List.cons_append, refineFrom, refineFrom, settled]

end WindowHost
