import Hyperscript.Code.Listener
import Mathlib.Data.List.Basic

/-! Listeners of a page, registered and removed. A page tells listeners apart by the element, the
event, the listener object and whether it captures. A function is the same object whenever it is
named, while each call of a runtime helper makes a new one. So a listener that went through a helper
is not found again by the name of its function, and its removal leaves it where it is. -/
namespace Hyperscript.Listener

/-- What is registered as a listener: a function, or what a rate limit makes of a listener. -/
inductive Callback where
  | function (name : String)
  | limited (helper : String) (inner : Callback) (delay : Float)

namespace Callback

def text : Callback → String
  | .function name => name
  | .limited helper inner delay => Listener.limited helper inner.text delay

/-- A handler behind its rate limits. -/
def ofHandler (handler : String) (modifiers : Modifiers) : Callback :=
  let debounced :=
    match modifiers.debounceDelay? with
    | some delay => limited "debounce" (.function handler) delay
    | none => .function handler
  match modifiers.throttleDelay? with
  | some delay => limited "throttle" debounced delay
  | none => debounced

theorem text_ofHandler (handler : String) (modifiers : Modifiers) :
    (ofHandler handler modifiers).text = reference handler modifiers := by
  unfold ofHandler reference
  cases modifiers.debounceDelay? <;> cases modifiers.throttleDelay? <;> rfl

/-- Without delays a handler stays the function it is; any delay wraps it. -/
theorem ofHandler_cases (handler : String) (modifiers : Modifiers) :
    (modifiers.debounceDelay? = none ∧ modifiers.throttleDelay? = none) ∧
        ofHandler handler modifiers = .function handler ∨
      ¬ (modifiers.debounceDelay? = none ∧ modifiers.throttleDelay? = none) ∧
        ∃ helper inner delay, ofHandler handler modifiers = .limited helper inner delay := by
  unfold ofHandler
  cases modifiers.debounceDelay? with
  | none =>
    cases modifiers.throttleDelay? with
    | none => exact .inl ⟨⟨rfl, rfl⟩, rfl⟩
    | some delay => exact .inr ⟨by simp, _, _, _, rfl⟩
  | some first =>
    cases modifiers.throttleDelay? with
    | none => exact .inr ⟨by simp, _, _, _, rfl⟩
    | some delay => exact .inr ⟨by simp, _, _, _, rfl⟩

/-- The text of a wrapped listener starts with the runtime, that of a function with its name. -/
theorem text_limited_ne (helper : String) (inner : Callback) (delay : Float) (handlerId : String) :
    (limited helper inner delay).text ≠ Names.functionName handlerId := by
  intro same
  have chars := congrArg (fun text => text.toList.take 2) same
  simp [text, Listener.limited, Names.member, Names.functionName] at chars

end Callback

/-- A call that registers a listener on an element, by way of delegation if the modifiers ask for
it. -/
structure Registration where
  element : String
  event : String
  callback : Callback
  modifiers : Modifiers

/-- A call that removes a listener from an element. -/
structure Removal where
  element : String
  event : String
  callback : Callback
  capture : Bool

def Registration.text (registration : Registration) : String :=
  call registration.element registration.event registration.callback.text
    registration.modifiers ++ ";"

def Removal.text (removal : Removal) : String :=
  removal.element ++ ".removeEventListener(" ++ Text.quoted removal.event ++ ", " ++
    removal.callback.text ++ (if removal.capture then ", true" else "") ++ ");"

/-- The registration that binds a handler. -/
def registration (handlerId event : String) (modifiers : Modifiers) : Registration where
  element := Names.element
  event := event
  callback := .ofHandler (Names.functionName handlerId) modifiers
  modifiers := modifiers

/-- The removal that unbinds it. -/
def removal (handlerId event : String) (modifiers : Modifiers) : Removal where
  element := Names.element
  event := event
  callback := .function (Names.functionName handlerId)
  capture := modifiers.capture

theorem binding_eq (handlerId event : String) (modifiers : Modifiers) :
    binding handlerId event modifiers = (registration handlerId event modifiers).text := by
  rw [binding, ← Callback.text_ofHandler]
  rfl

theorem cleanup?_eq {handlerId event : String} {modifiers : Modifiers}
    (lasting : modifiers.once = false) :
    cleanup? handlerId event modifiers = some (removal handlerId event modifiers).text := by
  rw [cleanup?, if_neg (by simp [lasting])]
  rfl

/-- A listener object: the function of a name, or one of those that helpers made. -/
inductive Object where
  | function (name : String)
  | made (index : Nat)
deriving DecidableEq

structure Entry where
  element : String
  event : String
  object : Object
  capture : Bool
deriving DecidableEq

/-- The listeners of a page, and how many objects helpers have made on it. -/
structure Page where
  entries : List Entry
  made : Nat

namespace Page

def make (page : Page) : Object × Page := (.made page.made, { page with made := page.made + 1 })

def evaluate (page : Page) : Callback → Object × Page
  | .function name => (.function name, page)
  | .limited _ inner _ => (page.evaluate inner).2.make

/-- Registering a listener a second time changes nothing. -/
def add (page : Page) (entry : Entry) : Page :=
  if entry ∈ page.entries then page else { page with entries := page.entries ++ [entry] }

def remove (page : Page) (entry : Entry) : Page :=
  { page with entries := page.entries.filter (· ≠ entry) }

/-- Delegation registers a listener of its own that calls the given one. -/
def register (page : Page) (registration : Registration) : Page :=
  let (object, page) := page.evaluate registration.callback
  let (object, page) :=
    if registration.modifiers.delegate?.isSome then page.make else (object, page)
  page.add ⟨registration.element, registration.event, object, registration.modifiers.capture⟩

def unregister (page : Page) (removal : Removal) : Page :=
  let (object, page) := page.evaluate removal.callback
  page.remove ⟨removal.element, removal.event, object, removal.capture⟩

/-- What code does to the listeners of a page. -/
inductive Action where
  | register (registration : Registration)
  | unregister (removal : Removal)

def perform (page : Page) : Action → Page
  | .register registration => page.register registration
  | .unregister removal => page.unregister removal

def run (page : Page) (actions : List Action) : Page := actions.foldl perform page

/-- No listener is an object that is yet to be made. -/
def IsSound (page : Page) : Prop :=
  ∀ entry ∈ page.entries, ∀ index, entry.object = .made index → index < page.made

variable {page : Page}

theorem entries_evaluate (callback : Callback) :
    (page.evaluate callback).2.entries = page.entries := by
  induction callback with
  | function => rfl
  | limited helper inner delay ih => exact ih

theorem made_evaluate (callback : Callback) : page.made ≤ (page.evaluate callback).2.made := by
  induction callback with
  | function => exact Nat.le_refl _
  | limited helper inner delay ih => exact Nat.le_succ_of_le ih

/-- What a helper makes was not there before. -/
theorem make_evaluate (callback : Callback) : ∃ index made, page.made ≤ index ∧
    (page.evaluate callback).2.make = (.made index, ⟨page.entries, made⟩) := by
  refine ⟨(page.evaluate callback).2.made, (page.evaluate callback).2.made + 1,
    made_evaluate callback, ?_⟩
  rw [make, entries_evaluate]

theorem IsSound.add {entry : Entry} (sound : page.IsSound)
    (old : ∀ index, entry.object = .made index → index < page.made) : (page.add entry).IsSound := by
  unfold Page.add
  split
  · exact sound
  · intro held member
    obtain before | rfl := (List.mem_append.mp member).imp_right List.mem_singleton.mp
    · exact sound held before
    · exact old

theorem IsSound.evaluate (sound : page.IsSound) (callback : Callback) :
    (page.evaluate callback).2.IsSound := by
  intro entry member index isMade
  rw [entries_evaluate] at member
  exact Nat.lt_of_lt_of_le (sound entry member index isMade) (made_evaluate callback)

theorem object_evaluate_lt (callback : Callback) {index : Nat}
    (isMade : (page.evaluate callback).1 = .made index) :
    index < (page.evaluate callback).2.made := by
  cases callback with
  | function => cases isMade
  | limited helper inner delay =>
    cases isMade
    exact Nat.lt_succ_self _

theorem IsSound.perform (sound : page.IsSound) (action : Action) :
    (page.perform action).IsSound := by
  cases action with
  | register registration =>
    have evaluated := sound.evaluate registration.callback
    simp only [Page.perform, Page.register]
    split
    · refine IsSound.add (fun entry member index isMade => ?_) ?_
      · exact Nat.lt_succ_of_lt (evaluated entry member index isMade)
      · rintro _ ⟨⟩
        exact Nat.lt_succ_self _
    · exact evaluated.add fun index => object_evaluate_lt registration.callback
  | unregister removal =>
    intro entry member
    exact sound.evaluate removal.callback entry (List.mem_of_mem_filter member)

/-- Whatever is registered and removed on a page, it stays sound. -/
theorem IsSound.run (sound : page.IsSound) (actions : List Action) :
    (page.run actions).IsSound := by
  induction actions generalizing page with
  | nil => exact sound
  | cons action actions ih => exact ih (sound.perform action)

/-- A handler is registered as its function if no helper is called, and else as an object that was
not there before. -/
theorem register_cases (page : Page) (handlerId event : String) (modifiers : Modifiers) :
    modifiers.helpers = [] ∧
        page.register (registration handlerId event modifiers) =
          page.add ⟨Names.element, event, .function (Names.functionName handlerId),
            modifiers.capture⟩ ∨
      modifiers.helpers ≠ [] ∧ ∃ index made, page.made ≤ index ∧
        page.register (registration handlerId event modifiers) =
          Page.add ⟨page.entries, made⟩ ⟨Names.element, event, .made index, modifiers.capture⟩ := by
  have helpers : modifiers.helpers = [] ↔ (modifiers.debounceDelay? = none ∧
      modifiers.throttleDelay? = none) ∧ modifiers.delegate? = none := by
    simp [Modifiers.helpers, and_assoc]
  rw [ne_eq, helpers, register]
  cases delegated : modifiers.delegate? with
  | none =>
    obtain ⟨unlimited, same⟩ | ⟨limited, helper, inner, delay, same⟩ :=
      Callback.ofHandler_cases (Names.functionName handlerId) modifiers
    · refine .inl ⟨⟨unlimited, rfl⟩, ?_⟩
      simp [registration, delegated, same, evaluate]
    · obtain ⟨index, made, later, result⟩ := @make_evaluate page inner
      refine .inr ⟨fun both => limited both.1, index, made, later, ?_⟩
      simp [registration, delegated, same, evaluate, result]
  | some selector =>
    obtain ⟨index, made, later, result⟩ :=
      @make_evaluate page (.ofHandler (Names.functionName handlerId) modifiers)
    refine .inr ⟨by simp, index, made, later, ?_⟩
    simp [registration, delegated, result]

/-- Removing what was just added restores the page, if it was not there before. -/
theorem entries_remove_add {entry : Entry} (fresh : entry ∉ page.entries) :
    ((page.add entry).remove entry).entries = page.entries := by
  rw [add, if_neg fresh, remove, List.filter_append]
  have others : page.entries.filter (· ≠ entry) = page.entries := by
    refine List.filter_eq_self.mpr fun other member => ?_
    exact decide_eq_true (ne_of_mem_of_not_mem member fresh)
  rw [others]
  simp

/-- Removing another listener that was never there leaves what was added. -/
theorem entries_remove_add_other {entry other : Entry} (fresh : entry ∉ page.entries)
    (absent : other ∉ page.entries) (different : entry ≠ other) :
    ((page.add entry).remove other).entries = page.entries ++ [entry] := by
  rw [add, if_neg fresh, remove]
  refine List.filter_eq_self.mpr fun held member => ?_
  obtain before | rfl := List.mem_append.mp member |>.imp_right List.mem_singleton.mp
  · exact decide_eq_true (ne_of_mem_of_not_mem before absent)
  · exact decide_eq_true different

end Page

/-- The removal names the element, the event and the capture flag of the registration, and it names
its listener exactly if there is no rate limit. Run after the registration, on a page where the
function of the handler does not listen yet, it restores the listeners exactly if no helper is
called at all. -/
theorem cleanup_restores_iff {handlerId event : String} {modifiers : Modifiers} {page : Page}
    (lasting : modifiers.once = false) (sound : page.IsSound)
    (fresh : ⟨Names.element, event, .function (Names.functionName handlerId), modifiers.capture⟩ ∉
      page.entries) :
    let registered := registration handlerId event modifiers
    let removed := removal handlerId event modifiers
    binding handlerId event modifiers = registered.text ∧
      cleanup? handlerId event modifiers = some removed.text ∧
      (removed.element = registered.element ∧ removed.event = registered.event ∧
        removed.capture = registered.modifiers.capture) ∧
      (removed.callback.text = registered.callback.text ↔
        modifiers.debounceDelay? = none ∧ modifiers.throttleDelay? = none) ∧
      (((page.register registered).unregister removed).entries = page.entries ↔
        modifiers.helpers = []) := by
  refine ⟨binding_eq handlerId event modifiers, cleanup?_eq lasting, ⟨rfl, rfl, rfl⟩, ?_, ?_⟩
  · obtain ⟨unlimited, same⟩ | ⟨limited, helper, inner, delay, same⟩ :=
      Callback.ofHandler_cases (Names.functionName handlerId) modifiers
    · exact iff_of_true (congrArg Callback.text same.symm) unlimited
    · refine iff_of_false ?_ limited
      change Names.functionName handlerId ≠ (Callback.ofHandler _ modifiers).text
      rw [same]
      exact (Callback.text_limited_ne helper inner delay handlerId).symm
  · obtain ⟨direct, registered⟩ | ⟨indirect, index, made, later, registered⟩ :=
      page.register_cases handlerId event modifiers
    · rw [registered]
      exact iff_of_true (Page.entries_remove_add fresh) direct
    · have unmade : ⟨Names.element, event, .made index, modifiers.capture⟩ ∉ page.entries :=
        fun member => absurd (sound _ member index rfl) (Nat.not_lt.mpr later)
      have left := @Page.entries_remove_add_other ⟨page.entries, made⟩ _ _ unmade fresh
        (by simp)
      rw [registered]
      refine iff_of_false (fun restored => ?_) indirect
      have longer := congrArg List.length (left.symm.trans restored)
      simp at longer

theorem cleanup_restores_capturing :
    let page := Page.run ⟨[], 0⟩ [.register (registration "h1" "click" { debounce := some 200.0 })]
    ((page.register (registration "h2" "click" { capture := true })).unregister
      (removal "h2" "click" { capture := true })).entries = page.entries := by
  intro page
  have sound : page.IsSound := Page.IsSound.run (by simp [Page.IsSound]) _
  have restores := @cleanup_restores_iff "h2" "click" { capture := true } page rfl sound
    (by decide +kernel)
  exact restores.2.2.2.2.mpr rfl

/-- A debounced handler is not removed by its cleanup. -/
theorem cleanup_misses_debounced :
    binding "h1" "click" { debounce := some 200.0 } =
        "_el.addEventListener(\"click\", _rt.debounce(_handler_h1, 200));" ∧
      cleanup? "h1" "click" { debounce := some 200.0 } =
        some "_el.removeEventListener(\"click\", _handler_h1);" ∧
      ((Page.register ⟨[], 0⟩ (registration "h1" "click" { debounce := some 200.0 })).unregister
        (removal "h1" "click" { debounce := some 200.0 })).entries =
          [⟨"_el", "click", .made 0, false⟩] := by
  decide +kernel

end Hyperscript.Listener
