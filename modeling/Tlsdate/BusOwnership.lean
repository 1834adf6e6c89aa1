import Tlsdate.BusWatches

namespace Tlsdate.BusOwnership

open Blocks
open Rtc (Timeval)
open BusWatches

/-- What has happened: the handles that an add function left with data that it freed, those
whose last `event_add` failed, and whether the handle of the running handler has been
dropped or given other data since, and dropped. -/
structure Past where
  spoiled : Nat → Bool
  refused : Nat → Bool
  stale : Bool
  gone : Bool

def note (p : Past) (b : Glue) (a : Act) (_ : Glue) (_ : List Out) : Past :=
  match a with
  | .add i luck =>
      if luck.malloc && luck.eventNew then
        { p with
          spoiled := Function.update p.spoiled i ((b.handles i).any (·.enabled) && !luck.eventAdd)
          refused := Function.update p.refused i false
          stale := p.stale || b.handling.any (·.handle == i) }
      else p
  | .toggle i enabled ok => { p with refused := Function.update p.refused i (enabled && !ok) }
  | .drop i =>
      { p with
        stale := p.stale || b.handling.any (·.handle == i)
        gone := p.gone || b.handling.any (·.handle == i) }
  | .fire _ _ => { p with stale := false, gone := false }
  | _ => p

def unharmed : Past := ⟨fun _ => false, fun _ => false, false, false⟩

/-- A handle whose `event_add` failed as it was added is neither added again nor dropped, and
a handler goes on only with the data that it began with, and calls only a watch that is there. -/
def Careful (s : Glue × Past) : Act → Prop
  | .add i luck => luck.malloc = true → luck.eventNew = true → s.2.spoiled i = false
  | .drop i => s.2.spoiled i = false
  | .retry => s.2.gone = false
  | .dispatch | .finish => s.2.stale = false
  | _ => True

structure Stands (b : Glue) (p : Past) (i : Nat) (h : Handle) : Prop where
  older : ∀ d, h.data = some d → d < b.datas.next
  live : ∀ d, h.data = some d → ((b.datas.block d).isSome = true ↔ p.spoiled i = false)
  spoilt : p.spoiled i = true → h.data ≠ none
  joined : h.added = true → ∃ d e, h.data = some d ∧ b.datas.block d = some ⟨some e⟩ ∧
    b.events.block e = some ⟨h.kind.what, i, h.wanted (p.refused i)⟩
  only : ∀ e ev, b.events.block e = some ev → ev.arg = i →
    h.added = true ∧ ∃ d, h.data = some d ∧ b.datas.block d = some ⟨some e⟩

/-- What the variable of a running handler points to. -/
def Inside (b : Glue) (p : Past) (x : Handling) : Prop :=
  if p.stale then x.data < b.datas.next ∧ b.datas.block x.data = none
  else ∃ h, b.handles x.handle = some h ∧ h.data = some x.data ∧ p.spoiled x.handle = false

structure Owned (b : Glue) (p : Past) : Prop where
  dead : ∀ i, b.handles i = none →
    p.spoiled i = false ∧ ∀ e ev, b.events.block e = some ev → ev.arg ≠ i
  stands : ∀ i h, b.handles i = some h → Stands b p i h
  apart : ∀ i j h k d, b.handles i = some h → b.handles j = some k → h.data = some d →
    k.data = some d → i = j
  kept : ∀ d x, b.datas.block d = some x → ∃ i h, b.handles i = some h ∧ h.data = some d
  inside : ∀ x, b.handling = some x → Inside b p x
  gripped : ∀ x, b.handling = some x → (p.gone = true ↔ b.handles x.handle = none)

structure Off (i : Nat) (b b' : Glue) (p p' : Past) : Prop where
  handles : ∀ j, j ≠ i → b'.handles j = b.handles j
  datas : ∀ j, j ≠ i → ∀ h d, b.handles j = some h → h.data = some d →
    b'.datas.block d = b.datas.block d
  events : ∀ e ev, ev.arg ≠ i → (b'.events.block e = some ev ↔ b.events.block e = some ev)
  spoiled : ∀ j, j ≠ i → p'.spoiled j = p.spoiled j
  refused : ∀ j, j ≠ i → p'.refused j = p.refused j
  next : b.datas.next ≤ b'.datas.next
  freed : ∀ d, d < b.datas.next → b.datas.block d = none → b'.datas.block d = none
  handling : b'.handling = b.handling
  stale : ∀ x, b.handling = some x → x.handle ≠ i → p'.stale = p.stale
  gone : ∀ x, b.handling = some x → x.handle ≠ i → p'.gone = p.gone

variable {b b' : Glue} {p p' : Past} {i j d e : Nat} {h k : Handle} {a : Act} {o : List Out}
  {x : Option EventData} {luck : Luck} {what : BitVec 16} {tv : Option Timeval}

theorem Stands.off (hk : Stands b p j k) (hj : b.handles j = some k) (hoff : Off i b b' p p')
    (hne : j ≠ i) : Stands b' p' j k where
  older d hd := Nat.lt_of_lt_of_le (hk.older d hd) hoff.next
  live d hd := by
    rw [hoff.datas j hne k d hj hd, hoff.spoiled j hne]
    exact hk.live d hd
  spoilt hs := hk.spoilt (hoff.spoiled j hne ▸ hs)
  joined hadded := by
    obtain ⟨d, e, hd, hdata, he⟩ := hk.joined hadded
    refine ⟨d, e, hd, ?_, ?_⟩
    · rw [hoff.datas j hne k d hj hd, hdata]
    · rw [hoff.refused j hne]
      exact (hoff.events e _ hne).mpr he
  only e ev he harg := by
    subst harg
    obtain ⟨hadded, d, hd, hdata⟩ := hk.only e ev ((hoff.events e ev hne).mp he) rfl
    exact ⟨hadded, d, hd, by rw [hoff.datas ev.arg hne k d hj hd, hdata]⟩

theorem Inside.off {x : Handling} (hx : Inside b p x) (hb : b.handling = some x)
    (hoff : Off i b b' p p') (hne : x.handle ≠ i) : Inside b' p' x := by
  rw [Inside, hoff.stale x hb hne]
  rw [Inside] at hx
  split_ifs at hx ⊢ with hstale
  · exact ⟨Nat.lt_of_lt_of_le hx.1 hoff.next, hoff.freed _ hx.1 hx.2⟩
  · rw [hoff.handles _ hne, hoff.spoiled _ hne]
    exact hx

/-- For a step that concerns one handle it is enough to look at that handle. -/
theorem Owned.off (hown : Owned b p) (hoff : Off i b b' p p')
    (hdead : b'.handles i = none →
      p'.spoiled i = false ∧ ∀ e ev, b'.events.block e = some ev → ev.arg ≠ i)
    (hstands : ∀ h, b'.handles i = some h → Stands b' p' i h)
    (hdata : ∀ h d, b'.handles i = some h → h.data = some d →
      (∃ k, b.handles i = some k ∧ k.data = some d) ∨ b.datas.next ≤ d)
    (hkept : ∀ d x, b'.datas.block d = some x →
      (∃ j k, j ≠ i ∧ b.handles j = some k ∧ k.data = some d) ∨
        ∃ h, b'.handles i = some h ∧ h.data = some d)
    (hinside : ∀ x, b.handling = some x → x.handle = i → Inside b' p' x)
    (hgripped : ∀ x, b.handling = some x → x.handle = i →
      (p'.gone = true ↔ b'.handles i = none)) : Owned b' p' where
  dead j hj := by
    by_cases hne : j = i
    · exact hne ▸ hdead (hne ▸ hj)
    · rw [hoff.handles j hne] at hj
      obtain ⟨hspoiled, hevents⟩ := hown.dead j hj
      rw [hoff.spoiled j hne]
      refine ⟨hspoiled, fun e ev he harg => ?_⟩
      subst harg
      exact hevents e ev ((hoff.events e ev hne).mp he) rfl
  stands j k hj := by
    by_cases hne : j = i
    · subst hne
      exact hstands k hj
    · rw [hoff.handles j hne] at hj
      exact (hown.stands j k hj).off hj hoff hne
  apart j j' k k' d hj hj' hd hd' := by
    have hother : ∀ j k, j ≠ i → b'.handles j = some k → k.data = some d →
        ∀ h, b'.handles i = some h → h.data ≠ some d := by
      intro j k hne hj hd h hi hdi
      rw [hoff.handles j hne] at hj
      obtain ⟨h₀, hi₀, hd₀⟩ | hnext := hdata h d hi hdi
      · exact hne (hown.apart j i k h₀ d hj hi₀ hd hd₀)
      · exact absurd ((hown.stands j k hj).older d hd) (Nat.not_lt.mpr hnext)
    by_cases hne : j = i <;> by_cases hne' : j' = i
    · rw [hne, hne']
    · exact absurd hd (hother j' k' hne' hj' hd' k (hne ▸ hj))
    · exact absurd hd' (hother j k hne hj hd k' (hne' ▸ hj'))
    · rw [hoff.handles j hne] at hj
      rw [hoff.handles j' hne'] at hj'
      exact hown.apart j j' k k' d hj hj' hd hd'
  kept d x hx := by
    obtain ⟨j, k, hne, hj, hd⟩ | ⟨h, hi, hd⟩ := hkept d x hx
    · exact ⟨j, k, by rw [hoff.handles j hne, hj], hd⟩
    · exact ⟨i, h, hi, hd⟩
  inside x hx := by
    rw [hoff.handling] at hx
    by_cases hne : x.handle = i
    · exact hinside x hx hne
    · exact (hown.inside x hx).off hx hoff hne
  gripped x hx := by
    rw [hoff.handling] at hx
    by_cases hne : x.handle = i
    · rw [hne]
      exact hgripped x hx hne
    · rw [hoff.gone x hx hne, hoff.handles _ hne]
      exact hown.gripped x hx

theorem Owned.same (hown : Owned b p) (hhandles : b'.handles = b.handles)
    (hdatas : b'.datas.block = b.datas.block) (hnext : b.datas.next ≤ b'.datas.next)
    (hevents : b'.events = b.events) (hspoiled : p'.spoiled = p.spoiled)
    (hrefused : p'.refused = p.refused)
    (hinside : ∀ x, b'.handling = some x → Inside b' p' x)
    (hgripped : ∀ x, b'.handling = some x → (p'.gone = true ↔ b.handles x.handle = none)) :
    Owned b' p' where
  dead j hj := by
    rw [hspoiled, hevents]
    exact hown.dead j (hhandles ▸ hj)
  stands j k hj := by
    have hk := hown.stands j k (hhandles ▸ hj)
    constructor
    · exact fun d hd => Nat.lt_of_lt_of_le (hk.older d hd) hnext
    · rw [hdatas, hspoiled]
      exact hk.live
    · rw [hspoiled]
      exact hk.spoilt
    · rw [hdatas, hevents, hrefused]
      exact hk.joined
    · rw [hdatas, hevents]
      exact hk.only
  apart := hhandles ▸ hown.apart
  kept := by
    rw [hdatas, hhandles]
    exact hown.kept
  inside := hinside
  gripped := by
    rw [hhandles]
    exact hgripped

theorem Stands.data_live (hst : Stands b p i h) (hspoiled : p.spoiled i = false) :
    ∀ d, h.data = some d → (b.datas.block d).isSome = true :=
  fun d hd => (hst.live d hd).mpr hspoiled

theorem Stands.spoiled (hst : Stands b p i h) (hspoiled : p.spoiled i = true) :
    ∃ d, h.data = some d ∧ b.datas.block d = none := by
  obtain ⟨d, hd⟩ := Option.ne_none_iff_exists'.mp (hst.spoilt hspoiled)
  refine ⟨d, hd, Option.not_isSome_iff_eq_none.mp fun hsome => ?_⟩
  rw [(hst.live d hd).mp hsome] at hspoiled
  cases hspoiled

theorem Stands.event_eq (hst : Stands b p i h) (hd : h.data = some d)
    (hdata : b.datas.block d = some ⟨some e⟩) {e' : Nat} {ev : Event}
    (he : b.events.block e' = some ev) (harg : ev.arg = i) : e' = e := by
  obtain ⟨-, d', hd', hdata'⟩ := hst.only e' ev he harg
  obtain rfl := Option.some.inj (hd.symm.trans hd')
  have hee := EventData.mk.inj (Option.some.inj (hdata.symm.trans hdata'))
  exact (Option.some.inj hee).symm

theorem Owned.other_data (hown : Owned b p) (hi : b.handles i = some h) (hne : j ≠ i)
    (hj : b.handles j = some k) (hd : k.data = some d) :
    without h.data b.datas.block d = b.datas.block d :=
  without_other fun hdi => hne (hown.apart j i k h d hj hi hd hdi)

theorem Owned.new (hown : Owned b p) (hi : b.handles i = none)
    (hother : ∀ x, b.handling = some x → x.handle ≠ i) (kind : Kind) (enabled : Bool) :
    Owned (b.setHandle i (some ⟨kind, enabled, false, none⟩)) p := by
  have hself : (b.setHandle i (some ⟨kind, enabled, false, none⟩)).handles i =
      some ⟨kind, enabled, false, none⟩ := Function.update_self ..
  obtain ⟨hspoiled, hevents⟩ := hown.dead i hi
  refine hown.off (i := i) ⟨fun j hne => Function.update_of_ne hne .., fun _ _ _ _ _ _ => rfl,
    fun _ _ _ => Iff.rfl, fun _ _ => rfl, fun _ _ => rfl, Nat.le_refl _, fun _ _ hd => hd, rfl,
    fun _ _ _ => rfl, fun _ _ _ => rfl⟩ ?_ ?_ ?_ ?_ (fun x hx he => absurd he (hother x hx))
    (fun x hx he => absurd he (hother x hx))
  · exact fun hnone => absurd (hself.symm.trans hnone) (by simp)
  · intro h hh
    obtain rfl := Option.some.inj (hself.symm.trans hh)
    constructor
    · exact fun _ hd => nomatch hd
    · exact fun _ hd => nomatch hd
    · exact fun hs => absurd (hspoiled.symm.trans hs) (by decide)
    · exact fun hadded => nomatch hadded
    · exact fun e ev he harg => absurd harg (hevents e ev he)
  · intro h d hh hd
    obtain rfl := Option.some.inj (hself.symm.trans hh)
    cases hd
  · intro d x hx
    obtain ⟨j, k, hj, hd⟩ := hown.kept d x hx
    refine Or.inl ⟨j, k, ?_, hj, hd⟩
    rintro rfl
    rw [hi] at hj
    cases hj

theorem update_other {f : Nat → Option Event} {o : Option Event}
    (he : ∀ ev, f e = some ev → ev.arg = i) (ho : ∀ ev, o = some ev → ev.arg = i) (e' : Nat)
    (ev : Event) (hne : ev.arg ≠ i) : Function.update f e o e' = some ev ↔ f e' = some ev := by
  by_cases hee : e' = e
  · subst hee
    rw [Function.update_self]
    exact ⟨fun hev => absurd (ho ev hev) hne, fun hev => absurd (he ev hev) hne⟩
  · rw [Function.update_of_ne hee]

theorem Owned.keep {events : Store Event} (hown : Owned b p) (refused : Nat → Bool)
    (hi : b.handles i = some h) (hdata : k.data = h.data)
    (hother : ∀ e ev, ev.arg ≠ i → (events.block e = some ev ↔ b.events.block e = some ev))
    (hrefused : ∀ j, j ≠ i → refused j = p.refused j)
    (hst : Stands { b.setHandle i (some k) with events := events } { p with refused := refused } i k) :
    Owned { b.setHandle i (some k) with events := events } { p with refused := refused } := by
  have hself : Function.update b.handles i (some k) i = some k := Function.update_self ..
  refine hown.off (i := i) ⟨fun j hne => Function.update_of_ne hne .., fun _ _ _ _ _ _ => rfl,
    hother, fun _ _ => rfl, hrefused, Nat.le_refl _, fun _ _ hd => hd, rfl, fun _ _ _ => rfl,
    fun _ _ _ => rfl⟩ ?_ ?_ ?_ ?_ ?_ ?_
  · exact fun hnone => absurd (hself.symm.trans hnone) (by simp)
  · intro k' hk
    obtain rfl := Option.some.inj (hself.symm.trans hk)
    exact hst
  · intro k' d hk hd
    obtain rfl := Option.some.inj (hself.symm.trans hk)
    exact Or.inl ⟨h, hi, hdata ▸ hd⟩
  · intro d x hx
    obtain ⟨j, k', hj, hd⟩ := hown.kept d x hx
    by_cases hne : j = i
    · subst hne
      obtain rfl := Option.some.inj (hi.symm.trans hj)
      exact Or.inr ⟨k, hself, hdata.trans hd⟩
    · exact Or.inl ⟨j, k', hne, hj, hd⟩
  · rintro x hx rfl
    have hin := hown.inside x hx
    rw [Inside] at hin ⊢
    split_ifs at hin ⊢ with hstale
    · exact hin
    · obtain ⟨h', hh, hd, hspoiled⟩ := hin
      obtain rfl := Option.some.inj (hi.symm.trans hh)
      exact ⟨k, hself, hdata.trans hd, hspoiled⟩
  · rintro x hx rfl
    have hgrip := hown.gripped x hx
    rw [hi] at hgrip
    exact hgrip.trans (iff_of_false (by simp) (by simp [Glue.setHandle]))

theorem Owned.toggle (hown : Owned b p) (hi : b.handles i = some h) (hadded : h.added = true)
    (enabled ok : Bool) : ∃ b', toggleFunction { h with enabled := enabled } ok
      (b.setHandle i (some { h with enabled := enabled })) = some b' ∧
      Owned b' { p with refused := Function.update p.refused i (enabled && !ok) } := by
  have hst := hown.stands i h hi
  obtain ⟨d, e, hd, hdata, he⟩ := hst.joined hadded
  obtain ⟨events, hrearm, hblock⟩ := rearm_wanted
    (b := b.setHandle i (some { h with enabled := enabled })) enabled ok he
  have hjoined := toggle_joined (h := { h with enabled := enabled })
    (b := b.setHandle i (some { h with enabled := enabled })) ok hd hdata
  refine ⟨_, hjoined.trans hrearm, hown.keep _ hi rfl ?_ ?_ ?_⟩
  · rw [hblock]
    refine update_other (fun ev hev => ?_) (fun ev hev => ?_)
    · obtain rfl := Option.some.inj (he.symm.trans hev)
      rfl
    · obtain rfl := Option.some.inj hev
      rfl
  · exact fun j hne => Function.update_of_ne hne ..
  · refine ⟨hst.older, hst.live, hst.spoilt, fun _ => ⟨d, e, hd, hdata, ?_⟩, fun e' ev hev harg => ?_⟩
    · simp only [hblock, Function.update_self]
    · refine ⟨hadded, d, hd, ?_⟩
      by_cases hee : e' = e
      · rw [hee]
        exact hdata
      · rw [hblock, Function.update_of_ne hee] at hev
        exact absurd (hst.event_eq hd hdata hev harg) hee

theorem Owned.remove (hown : Owned b p) (hi : b.handles i = some h) (hadded : h.added = true) :
    ∃ b', removeFunction h b = some b' ∧
      Owned (b'.setHandle i (some { h with added := false })) p := by
  have hst := hown.stands i h hi
  obtain ⟨d, e, hd, hdata, he⟩ := hst.joined hadded
  obtain ⟨events, hremove, hblock⟩ := remove_joined hd hdata he
  refine ⟨_, hremove, hown.keep p.refused hi rfl ?_ (fun _ _ => rfl) ?_⟩
  · rw [hblock]
    refine update_other (fun ev hev => ?_) (fun ev hev => nomatch hev)
    obtain rfl := Option.some.inj (he.symm.trans hev)
    rfl
  · refine ⟨hst.older, hst.live, hst.spoilt, (fun hadded => nomatch hadded), fun e' ev hev harg => ?_⟩
    simp only [hblock] at hev
    by_cases hee : e' = e
    · rw [hee, Function.update_self] at hev
      cases hev
    · rw [Function.update_of_ne hee] at hev
      exact absurd (hst.event_eq hd hdata hev harg) hee

section Renew

variable (hdatas : b'.datas.block = Function.update (without h.data b.datas.block) b.datas.next x)

include hdatas

theorem renew_old (hd : d < b.datas.next) : b'.datas.block d = without h.data b.datas.block d := by
  rw [hdatas, Function.update_of_ne (Nat.ne_of_lt hd)]

theorem renew_freed (hd : d < b.datas.next) (hor : b.datas.block d = none ∨ h.data = some d) :
    b'.datas.block d = none := by
  rw [renew_old hdatas hd]
  by_cases hdi : h.data = some d
  · rw [hdi, without_self]
  · rw [without_other hdi]
    exact hor.resolve_right hdi

theorem Off.renew {k : Option Handle} (hown : Owned b p) (hi : b.handles i = some h)
    (hhandles : b'.handles = Function.update b.handles i k)
    (hnext : b.datas.next ≤ b'.datas.next) (hhandling : b'.handling = b.handling)
    (hother : ∀ e ev, ev.arg ≠ i → (b'.events.block e = some ev ↔ b.events.block e = some ev))
    (hspoiled : ∀ j, j ≠ i → p'.spoiled j = p.spoiled j)
    (hrefused : ∀ j, j ≠ i → p'.refused j = p.refused j)
    (hstale : p'.stale = (p.stale || b.handling.any (·.handle == i)))
    (hdropped : p'.gone = (p.gone || k.isNone && b.handling.any (·.handle == i))) :
    Off i b b' p p' where
  handles j hne := by
    rw [hhandles, Function.update_of_ne hne]
  datas j hne k' d hj hd := by
    rw [renew_old hdatas ((hown.stands j k' hj).older d hd), hown.other_data hi hne hj hd]
  events := hother
  spoiled := hspoiled
  refused := hrefused
  next := hnext
  freed d hd hnone := renew_freed hdatas hd (Or.inl hnone)
  handling := hhandling
  stale y hy hne := by
    rw [hstale, hy]
    simp [hne]
  gone y hy hne := by
    rw [hdropped, hy]
    simp [hne]

theorem Inside.renew {y : Handling} (hown : Owned b p) (hi : b.handles y.handle = some h)
    (hy : b.handling = some y) (hnext : b.datas.next ≤ b'.datas.next) (hstale : p'.stale = true) :
    Inside b' p' y := by
  have hin := hown.inside y hy
  rw [Inside, if_pos hstale]
  rw [Inside] at hin
  split_ifs at hin
  · exact ⟨Nat.lt_of_lt_of_le hin.1 hnext, renew_freed hdatas hin.1 (Or.inl hin.2)⟩
  · obtain ⟨h', hh, hd, -⟩ := hin
    obtain rfl := Option.some.inj (hi.symm.trans hh)
    have hlt := (hown.stands y.handle h hi).older _ hd
    exact ⟨Nat.lt_of_lt_of_le hlt hnext, renew_freed hdatas hlt (Or.inr hd)⟩

theorem Owned.renew_kept {y : EventData} (hown : Owned b p) (hi : b.handles i = some h)
    (hy : b'.datas.block d = some y) (hdn : d ≠ b.datas.next) :
    ∃ j k, j ≠ i ∧ b.handles j = some k ∧ k.data = some d := by
  rw [hdatas, Function.update_of_ne hdn] at hy
  by_cases hdi : h.data = some d
  · rw [hdi, without_self] at hy
    cases hy
  · rw [without_other hdi] at hy
    obtain ⟨j, k, hj, hd⟩ := hown.kept d y hy
    refine ⟨j, k, ?_, hj, hd⟩
    rintro rfl
    obtain rfl := Option.some.inj (hi.symm.trans hj)
    exact hdi hd

end Renew

/-- A call that frees the data of a handle, which gets a new block or goes. -/
theorem Owned.renew {k : Option Handle} (hown : Owned b p) (hi : b.handles i = some h)
    (hadded : h.added = false) (hhandles : b'.handles = Function.update b.handles i k)
    (hdatas : b'.datas.block = Function.update (without h.data b.datas.block) b.datas.next x)
    (hnext : b.datas.next ≤ b'.datas.next) (hhandling : b'.handling = b.handling)
    (hother : ∀ e ev, ev.arg ≠ i → (b'.events.block e = some ev ↔ b.events.block e = some ev))
    (hspoiled : ∀ j, j ≠ i → p'.spoiled j = p.spoiled j)
    (hrefused : ∀ j, j ≠ i → p'.refused j = p.refused j)
    (hstale : p'.stale = (p.stale || b.handling.any (·.handle == i)))
    (hdropped : p'.gone = (p.gone || k.isNone && b.handling.any (·.handle == i)))
    (hgone : k = none → p'.spoiled i = false ∧ b'.events = b.events ∧ x = none)
    (hdata : ∀ k', k = some k' → k'.data = some b.datas.next)
    (hst : ∀ k', k = some k' → Stands b' p' i k') : Owned b' p' := by
  have hself : b'.handles i = k := by
    rw [hhandles, Function.update_self]
  refine hown.off (.renew hdatas hown hi hhandles hnext hhandling hother hspoiled hrefused hstale
    hdropped) ?_ ?_ ?_ ?_ ?_ ?_
  · intro hnone
    obtain ⟨hsp, hevents, -⟩ := hgone (hself.symm.trans hnone)
    refine ⟨hsp, fun e ev he harg => ?_⟩
    rw [hevents] at he
    rw [((hown.stands i h hi).only e ev he harg).1] at hadded
    cases hadded
  · exact fun k' hk => hst k' (hself.symm.trans hk)
  · intro k' d hk hd
    rw [hdata k' (hself.symm.trans hk)] at hd
    exact Or.inr (Nat.le_of_eq (Option.some.inj hd))
  · intro d y hy
    by_cases hdn : d = b.datas.next
    · subst hdn
      rw [hdatas, Function.update_self] at hy
      cases hk : k with
      | none =>
          rw [(hgone hk).2.2] at hy
          cases hy
      | some k' => exact Or.inr ⟨k', hself.trans hk, hdata k' hk⟩
    · exact Or.inl (hown.renew_kept hdatas hi hy hdn)
  · rintro y hy rfl
    refine .renew hdatas hown hi hy hnext ?_
    rw [hstale, hy]
    simp
  · rintro y hy rfl
    have hgrip := hown.gripped y hy
    rw [hi] at hgrip
    rw [hdropped, hy, hself, Bool.or_eq_true, hgrip]
    simp

theorem Owned.drop (hown : Owned b p) (hi : b.handles i = some h) (hadded : h.added = false)
    (hspoiled : p.spoiled i = false) : ∃ datas, dbusFree h.data b.datas = some datas ∧
      Owned { b.setHandle i none with datas := datas }
        { p with
          stale := p.stale || b.handling.any (·.handle == i)
          gone := p.gone || b.handling.any (·.handle == i) } := by
  have hst := hown.stands i h hi
  obtain ⟨datas, hfree, hblock, hnext⟩ := dbusFree_live (hst.data_live hspoiled)
  refine ⟨datas, hfree, hown.renew (k := none) (x := none) hi hadded rfl ?_ (Nat.le_of_eq hnext.symm)
    rfl (fun _ _ _ => Iff.rfl) (fun _ _ => rfl) (fun _ _ => rfl) rfl rfl (fun _ => ⟨hspoiled, rfl, rfl⟩)
    (fun _ hk => nomatch hk) (fun _ hk => nomatch hk)⟩
  have hfresh : without h.data b.datas.block b.datas.next = none := by
    rw [without_other fun hd => Nat.lt_irrefl _ (hst.older _ hd)]
    exact b.datas.fresh _ (Nat.le_refl _)
  rw [hblock, ← hfresh, Function.update_eq_self]

theorem Owned.add (hown : Owned b p) (hi : b.handles i = some h) (hadded : h.added = false)
    (hmalloc : luck.malloc = true) (hnew : luck.eventNew = true) (hspoiled : p.spoiled i = false) :
    ∃ b' ok, addFunction h.kind i h luck b = some (b', ok) ∧
      Owned (b'.setHandle i ((b'.handles i).map fun h => { h with added := ok }))
        { p with
          spoiled := Function.update p.spoiled i (h.enabled && !luck.eventAdd)
          refused := Function.update p.refused i false
          stale := p.stale || b.handling.any (·.handle == i) } := by
  have hst := hown.stands i h hi
  obtain ⟨b', hadd, hhandles, hdatas, hnext, hevents, hhandling⟩ :=
    addHandle_published h.kind.what h.kind.timeval i hmalloc hnew
      hst.older (hst.data_live hspoiled)
  rw [added_event] at hevents
  have hok : (h.enabled && !luck.eventAdd) = !(!h.enabled || luck.eventAdd) := by
    cases h.enabled <;> rfl
  generalize (!h.enabled || luck.eventAdd) = ok at *
  refine ⟨b', ok, (addFunction_eq h.kind) ▸ hadd, ?_⟩
  have hset : (b'.handles i).map (fun h => { h with added := ok }) =
      some { h with data := some b.datas.next, added := ok } := by
    rw [hhandles, Function.update_self]
    rfl
  rw [hset, hok]
  have hnone : b.events.block b.events.next = none := b.events.fresh _ (Nat.le_refl _)
  refine hown.renew (k := some { h with data := some b.datas.next, added := ok }) hi hadded ?_ hdatas
    (hnext ▸ Nat.le_succ _) hhandling ?_ (fun j hne => Function.update_of_ne hne ..)
    (fun j hne => Function.update_of_ne hne ..) rfl (by simp) (fun hk => nomatch hk) ?_ ?_
  · simp only [Glue.setHandle, hhandles, Function.update_idem]
  · simp only [Glue.setHandle, hevents]
    refine update_other (fun ev hev => ?_) (fun ev hev => ?_)
    · rw [hnone] at hev
      cases hev
    · obtain ⟨-, hev⟩ := Option.ite_none_right_eq_some.mp hev
      obtain rfl := Option.some.inj hev
      rfl
  · intro k hk
    obtain rfl := Option.some.inj hk
    rfl
  · intro k hk
    obtain rfl := Option.some.inj hk
    constructor
    · intro d hd
      obtain rfl := Option.some.inj hd
      simp only [Glue.setHandle, hnext, Nat.lt_succ_self]
    · intro d hd
      obtain rfl := Option.some.inj hd
      simp only [Glue.setHandle, hdatas, Function.update_self]
      cases ok <;> simp
    · exact fun _ hd => nomatch hd
    · intro hadded'
      obtain rfl : ok = true := hadded'
      refine ⟨b.datas.next, b.events.next, rfl, ?_, ?_⟩
      · simp only [Glue.setHandle, hdatas, Function.update_self, if_true]
      · simp only [Glue.setHandle, hevents, Function.update_self, if_true, Handle.wanted]
    · intro e ev he harg
      simp only [Glue.setHandle, hevents] at he
      by_cases hee : e = b.events.next
      · rw [hee, Function.update_self] at he
        obtain ⟨rfl, -⟩ := Option.ite_none_right_eq_some.mp he
        refine ⟨rfl, b.datas.next, rfl, ?_⟩
        simp only [Glue.setHandle, hdatas, Function.update_self, if_true, hee]
      · rw [Function.update_of_ne hee] at he
        rw [(hst.only e ev he harg).1] at hadded
        cases hadded

theorem Owned.event {ev : Event} (hown : Owned b p) (he : b.events.block e = some ev) :
    ∃ h d, b.handles ev.arg = some h ∧ h.added = true ∧ h.data = some d ∧
      b.datas.block d = some ⟨some e⟩ ∧ p.spoiled ev.arg = false ∧
      ev = ⟨h.kind.what, ev.arg, h.wanted (p.refused ev.arg)⟩ := by
  obtain hnone | ⟨h, hi⟩ := Option.eq_none_or_eq_some (b.handles ev.arg)
  · exact absurd rfl ((hown.dead ev.arg hnone).2 e ev he)
  · have hst := hown.stands ev.arg h hi
    obtain ⟨hadded, d, hd, hdata⟩ := hst.only e ev he rfl
    obtain ⟨d', e', hd', hdata', he'⟩ := hst.joined hadded
    obtain rfl := Option.some.inj (hd.symm.trans hd')
    obtain rfl := hst.event_eq hd hdata he' rfl
    refine ⟨h, d, hi, hadded, hd, hdata, (hst.live d hd).mp (by rw [hdata]; rfl), ?_⟩
    exact Option.some.inj (he.symm.trans he')

theorem Owned.handled {ev : Event} (hown : Owned b p) (what : BitVec 16)
    (he : b.events.block e = some ev) :
    ∃ b' o, handler ev.arg what b = some (b', o) ∧ Out.fault ∉ o ∧
      Owned b' { p with stale := false, gone := false } := by
  obtain ⟨h, d, hi, -, hd, hdata, hspoiled, -⟩ := hown.event he
  have hinside : ∀ stage x, some (⟨ev.arg, d, stage⟩ : Handling) = some x →
      ∃ h, b.handles x.handle = some h ∧ h.data = some x.data ∧ p.spoiled x.handle = false := by
    intro stage x hx
    obtain rfl := Option.some.inj hx
    exact ⟨h, hi, hd, hspoiled⟩
  have hgripped : ∀ stage x, some (⟨ev.arg, d, stage⟩ : Handling) = some x →
      (false = true ↔ b.handles x.handle = none) := by
    intro stage x hx
    obtain rfl := Option.some.inj hx
    simp [hi]
  rw [handler, hi, Option.bind_some, hd, Option.bind_some, hdata, Option.map_some]
  cases h.kind with
  | watch flags =>
      exact ⟨_, _, rfl, by simp,
        hown.same rfl rfl (Nat.le_refl _) rfl rfl rfl (hinside _) (hgripped _)⟩
  | timeout ms =>
      exact ⟨_, _, rfl, by simp,
        hown.same rfl rfl (Nat.le_refl _) rfl rfl rfl (hinside _) (hgripped _)⟩

theorem Owned.read {y : Handling} (hown : Owned b p) (hy : b.handling = some y) :
    p.stale = false ∧ (∃ x, b.datas.block y.data = some x) ∨
      p.stale = true ∧ b.datas.block y.data = none := by
  have hin := hown.inside y hy
  rw [Inside] at hin
  split_ifs at hin with hstale
  · exact Or.inr ⟨hstale, hin.2⟩
  · obtain ⟨h, hi, hd, hspoiled⟩ := hin
    have hlive := (hown.stands _ h hi).data_live hspoiled y.data hd
    exact Or.inl ⟨Bool.eq_false_iff.mpr hstale, Option.isSome_iff_exists.mp hlive⟩

def Sound (b : Glue) (p : Past) (a : Act) (b' : Glue) (o : List Out) : Prop :=
  Out.fault ∉ o ∧ Careful (b, p) a ∧ Owned b' (note p b a b' o) ∨
    Out.fault ∈ o ∧ ¬ Careful (b, p) a

theorem Owned.early (hown : Owned b p) (hi : b.handles i = some h) (hadded : h.added = false)
    (hhandles : b'.handles = b.handles) (hdatas : b'.datas.block = b.datas.block)
    (hnext : b.datas.next ≤ b'.datas.next) (hevents : b'.events = b.events)
    (hhandling : b'.handling = b.handling) :
    Owned (b'.setHandle i ((b'.handles i).map fun h => { h with added := false })) p := by
  have hsame : ({ h with added := false } : Handle) = h := by
    rw [← hadded]
  have hset : Function.update b'.handles i ((b'.handles i).map fun h => { h with added := false }) =
      b.handles := by
    rw [hhandles, hi, Option.map_some, hsame, ← hi, Function.update_eq_self]
  refine hown.same hset hdatas hnext hevents rfl rfl (fun x hx => ?_)
    fun x hx => hown.gripped x (hhandling ▸ hx)
  have hin := hown.inside x (hhandling ▸ hx)
  rw [Inside] at hin ⊢
  split_ifs at hin ⊢
  · exact ⟨Nat.lt_of_lt_of_le hin.1 hnext, (congrFun hdatas _).trans hin.2⟩
  · obtain ⟨h', hh, hrest⟩ := hin
    exact ⟨h', (congrFun hset _).trans hh, hrest⟩

theorem add_sound (hown : Owned b p) (hs : step b (.add i luck) = some (b', o)) :
    Sound b p (.add i luck) b' o := by
  obtain ⟨h, hi, hs⟩ := Option.bind_eq_some_iff.mp hs
  split_ifs at hs with hadded
  rw [Bool.not_eq_true] at hadded
  by_cases hluck : luck.malloc = true ∧ luck.eventNew = true
  · obtain ⟨hmalloc, hnew⟩ := hluck
    cases hspoiled : p.spoiled i with
    | true =>
        have hst := hown.stands i h hi
        obtain ⟨d, hd, hnone⟩ := hst.spoiled hspoiled
        rw [addFunction_eq, addHandle_dangling hmalloc hnew hd (hst.older d hd) hnone] at hs
        cases hs
        exact Or.inr ⟨by simp, fun hc => absurd (hspoiled.symm.trans (hc hmalloc hnew)) (by decide)⟩
    | false =>
        obtain ⟨b₁, ok, hadd, hown'⟩ := hown.add hi hadded hmalloc hnew hspoiled
        rw [hadd] at hs
        cases hs
        refine Or.inl ⟨by simp, fun _ _ => hspoiled, ?_⟩
        rw [note, hmalloc, hnew, hi]
        exact hown'
  · obtain ⟨b₁, hadd, hhandles, hdatas, hnext, hevents, hhandling⟩ :=
      addHandle_early h.kind.what h.kind.timeval i h b hluck
    rw [addFunction_eq, hadd] at hs
    cases hs
    refine Or.inl ⟨by simp, fun hmalloc hnew => absurd ⟨hmalloc, hnew⟩ hluck, ?_⟩
    rw [note, if_neg (by rwa [Bool.and_eq_true])]
    exact hown.early hi hadded hhandles hdatas hnext hevents hhandling

theorem drop_sound (hown : Owned b p) (hs : step b (.drop i) = some (b', o)) :
    Sound b p (.drop i) b' o := by
  obtain ⟨h, hi, hs⟩ := Option.bind_eq_some_iff.mp hs
  split_ifs at hs with hadded
  rw [Bool.not_eq_true] at hadded
  cases hspoiled : p.spoiled i with
  | true =>
      obtain ⟨d, hd, hnone⟩ := (hown.stands i h hi).spoiled hspoiled
      rw [hd, dbusFree_dangling hnone] at hs
      cases hs
      exact Or.inr ⟨by simp, fun hc => absurd (hspoiled.symm.trans hc) (by decide)⟩
  | false =>
      obtain ⟨datas, hfree, hown'⟩ := hown.drop hi hadded hspoiled
      rw [hfree] at hs
      cases hs
      exact Or.inl ⟨by simp, hspoiled, hown'⟩

theorem read_sound {y : Handling} {b₁ : Glue} {o₁ : List Out} (hown : Owned b p)
    (hy : b.handling = some y) (hcareful : Careful (b, p) a ↔ p.stale = false)
    (hfault : Out.fault ∉ o₁) (hown' : Owned b₁ (note p b a b₁ o₁))
    (hs : orFault b ((b.datas.block y.data).map fun _ => (b₁, o₁)) = some (b', o)) :
    Sound b p a b' o := by
  obtain ⟨hstale, x, hx⟩ | ⟨hstale, hnone⟩ := hown.read hy
  · rw [hx] at hs
    cases hs
    exact Or.inl ⟨hfault, hcareful.mpr hstale, hown'⟩
  · rw [hnone] at hs
    cases hs
    exact Or.inr ⟨by simp, fun hc => absurd (hstale.symm.trans (hcareful.mp hc)) (by decide)⟩

theorem step_sound (hown : Owned b p) (hs : step b a = some (b', o)) : Sound b p a b' o := by
  cases a with
  | new i kind enabled =>
      rw [step] at hs
      split_ifs at hs with hi
      cases hs
      refine Or.inl ⟨by simp, trivial, hown.new hi.1 (fun x hx => ?_) kind enabled⟩
      simpa [hx] using hi.2
  | add i luck => exact add_sound hown hs
  | toggle i enabled ok =>
      obtain ⟨h, hi, hs⟩ := Option.bind_eq_some_iff.mp hs
      dsimp only at hs
      split_ifs at hs with hadded
      obtain ⟨b₁, htoggle, hown'⟩ := hown.toggle hi hadded enabled ok
      rw [htoggle] at hs
      cases hs
      exact Or.inl ⟨by simp, trivial, hown'⟩
  | remove i =>
      obtain ⟨h, hi, hs⟩ := Option.bind_eq_some_iff.mp hs
      split_ifs at hs with hadded
      obtain ⟨b₁, hremove, hown'⟩ := hown.remove hi hadded
      rw [hremove] at hs
      cases hs
      exact Or.inl ⟨by simp, trivial, hown'⟩
  | drop i => exact drop_sound hown hs
  | fire e what =>
      obtain ⟨ev, he, hs⟩ := Option.bind_eq_some_iff.mp hs
      split_ifs at hs
      obtain ⟨b₁, o₁, hhandler, hfault, hown'⟩ := hown.handled what he
      rw [hhandler] at hs
      cases hs
      exact Or.inl ⟨hfault, trivial, hown'⟩
  | retry =>
      obtain ⟨y, hy, hs⟩ := Option.bind_eq_some_iff.mp hs
      have hgrip := hown.gripped y hy
      split at hs
      · cases hi : b.handles y.handle with
        | none =>
            rw [hi] at hs
            cases hs
            exact Or.inr ⟨by simp, fun hc => absurd ((hgrip.mpr hi).symm.trans hc) (by decide)⟩
        | some h =>
            rw [hi] at hs hgrip
            cases hs
            have hthere : p.gone = false := by simpa using hgrip
            exact Or.inl ⟨by simp, hthere, hown⟩
      · cases hs
  | dispatch =>
      obtain ⟨y, hy, hs⟩ := Option.bind_eq_some_iff.mp hs
      split_ifs at hs
      refine read_sound hown hy Iff.rfl (by simp) ?_ hs
      refine hown.same rfl rfl (Nat.le_refl _) rfl rfl rfl (fun z hz => ?_) fun z hz => ?_
      · obtain rfl := Option.some.inj hz
        exact hown.inside y hy
      · obtain rfl := Option.some.inj hz
        exact hown.gripped y hy
  | finish =>
      obtain ⟨y, hy, hs⟩ := Option.bind_eq_some_iff.mp hs
      have hs : orFault b ((b.datas.block y.data).map fun _ => ({ b with handling := none }, [])) =
          some (b', o) := by
        revert hs
        cases y.stage <;> simp
      refine read_sound hown hy Iff.rfl (by simp) ?_ hs
      exact hown.same rfl rfl (Nat.le_refl _) rfl rfl rfl (fun z hz => nomatch hz)
        fun z hz => nomatch hz

structure Mirrors (b : Glue) (p : Past) : Prop where
  waits : ∀ i what tv, (∃ e, b.events.block e = some ⟨what, i, some tv⟩) ↔
    ∃ h, b.handles i = some h ∧ h.added = true ∧ what = h.kind.what ∧
      h.wanted (p.refused i) = some tv
  once : ∀ e e' ev ev', b.events.block e = some ev → b.events.block e' = some ev' →
    ev.arg = ev'.arg → e = e'
  told : ∀ e what b' o, step b (.fire e what) = some (b', o) → ∃ i h, b.handles i = some h ∧
    h.added = true ∧ h.enabled = true ∧
    match h.kind with
    | .watch flags => ∃ f, o = [.told i f] ∧ f ≠ 0 ∧ f &&& flags = f
    | .timeout _ => o = [.expired i]
  events : ∀ e ev, b.events.block e = some ev → ∃ h, b.handles ev.arg = some h ∧ h.added = true
  datas : ∀ d x, b.datas.block d = some x → ∃ i h, b.handles i = some h ∧ h.data = some d

theorem Owned.told {o : List Out} (hown : Owned b p) (hs : step b (.fire e what) = some (b', o)) :
    ∃ i h, b.handles i = some h ∧ h.added = true ∧ h.enabled = true ∧
      match h.kind with
      | .watch flags => ∃ f, o = [.told i f] ∧ f ≠ 0 ∧ f &&& flags = f
      | .timeout _ => o = [.expired i] := by
  obtain ⟨ev, he, hs⟩ := Option.bind_eq_some_iff.mp hs
  split_ifs at hs with henabled
  obtain ⟨-, hpending, hne, hsub⟩ := henabled
  obtain ⟨h, d, hi, hadded, hd, hdata, -, hev⟩ := hown.event he
  rw [handler, hi, Option.bind_some, hd, Option.bind_some, hdata, Option.map_some] at hs
  have hwhat : ev.what = h.kind.what := congrArg Event.what hev
  have hwanted : ev.pending = h.wanted (p.refused ev.arg) := congrArg Event.pending hev
  obtain ⟨tv, htv⟩ := Option.isSome_iff_exists.mp hpending
  refine ⟨ev.arg, h, hi, hadded, (wanted_some (hwanted.symm.trans htv)).1, ?_⟩
  cases hkind : h.kind with
  | watch flags =>
      rw [hwhat, hkind] at hsub
      rw [hkind] at hs
      cases hs
      exact ⟨eventToDbus what, rfl, told_flags hne hsub⟩
  | timeout ms =>
      rw [hkind] at hs
      cases hs
      rfl

theorem Owned.mirrors (hown : Owned b p) : Mirrors b p where
  waits i what tv := by
    constructor
    · rintro ⟨e, he⟩
      obtain ⟨h, d, hi, hadded, -, -, -, hev⟩ := hown.event he
      obtain ⟨hwhat, -, hwanted⟩ := Event.mk.inj hev
      exact ⟨h, hi, hadded, hwhat, hwanted.symm⟩
    · rintro ⟨h, hi, hadded, rfl, hwanted⟩
      obtain ⟨d, e, -, -, he⟩ := (hown.stands i h hi).joined hadded
      exact ⟨e, hwanted ▸ he⟩
  once e e' ev ev' he he' harg := by
    obtain ⟨h, d, hi, -, hd, hdata, -, -⟩ := hown.event he'
    exact (hown.stands _ h hi).event_eq hd hdata he harg
  told e what b' o hs := hown.told hs
  events e ev he := by
    obtain ⟨h, d, hi, hadded, -⟩ := hown.event he
    exact ⟨h, hi, hadded⟩
  datas := hown.kept

theorem start_owned : Owned start unharmed where
  dead _ _ := ⟨rfl, fun _ _ he => nomatch he⟩
  stands _ _ hi := nomatch hi
  apart _ _ _ _ _ hi := nomatch hi
  kept _ _ hx := nomatch hx
  inside _ hx := nomatch hx
  gripped _ hx := nomatch hx

/-- In every run of libdbus and libevent over the add, remove and toggle functions and the
handlers, nothing is used or freed after it was freed exactly if every step is careful; and
then libevent waits for just what libdbus wants, save where `event_add` has failed, its
handlers tell libdbus of nothing else, and no block is lost. -/
theorem glue_sound {acts : List Act} {s : Glue × Past} {out : List Out}
    (hr : Machine.Run (Machine.observed step note) Machine.Free (start, unharmed) acts s out) :
    (Out.fault ∉ out ↔
      Machine.Run (Machine.observed step note) Careful (start, unharmed) acts s out) ∧
      (Out.fault ∉ out → Mirrors s.1 s.2) := by
  have hstep : ∀ (s : Glue × Past) (a : Act) (s' : Glue × Past) (o out : List Out),
      (Out.fault ∈ out ∨ Owned s.1 s.2) → Machine.observed step note s a = some (s', o) →
      (Out.fault ∈ out ++ o ∨ Owned s'.1 s'.2) ∧
        (Out.fault ∉ out ++ o ↔ Out.fault ∉ out ∧ Careful s a) := by
    intro s a s' o out hI hs
    obtain ⟨hs, hnote⟩ := Machine.observed_some hs
    rw [List.mem_append, hnote]
    obtain hfault | hown := hI
    · exact ⟨Or.inl (Or.inl hfault), by simp [hfault]⟩
    · obtain ⟨hfault, hcareful, hown'⟩ | ⟨hfault, hcareless⟩ := step_sound hown hs
      · exact ⟨Or.inr hown', by simp [hfault, hcareful]⟩
      · exact ⟨Or.inl (Or.inr hfault), by simp [hfault, hcareless]⟩
  refine ⟨hr.admitted_iff (fun out => Out.fault ∉ out)
    (fun s out => Out.fault ∈ out ∨ Owned s.1 s.2) (by simp) (Or.inr start_owned) hstep,
    fun hfault => ?_⟩
  have hI := hr.history (fun s out => Out.fault ∈ out ∨ Owned s.1 s.2) (Or.inr start_owned)
    fun s a s' o out hI _ hs => (hstep s a s' o out hI hs).1
  exact (hI.resolve_left hfault).mirrors

def outputs (acts : List Act) : Option (List Out) :=
  (Machine.exec (Machine.observed step note) (start, unharmed) acts).map (·.2)

def session : List Act :=
  [.new 0 (.watch 3) true, .add 0 ⟨true, true, true⟩, .new 1 (.timeout 1500) true,
    .add 1 ⟨true, true, true⟩, .fire 0 evRead, .toggle 1 false true, .dispatch, .finish,
    .remove 0, .drop 0]

theorem glue_sound_session : ∃ s out,
    Machine.exec (Machine.observed step note) (start, unharmed) session = some (s, out) ∧
      out = [.answered 0 true, .answered 1 true, .told 0 1, .dispatched] ∧ Mirrors s.1 s.2 := by
  have hx : outputs session =
      some [.answered 0 true, .answered 1 true, .told 0 1, .dispatched] := by decide +kernel
  obtain ⟨⟨s, out⟩, hx, he⟩ := Option.map_eq_some_iff.mp hx
  obtain rfl : out = _ := he
  exact ⟨s, _, hx, rfl, (glue_sound (.of_exec hx)).2 (by decide)⟩

/-- Data that an add function has freed is freed again as the handle goes, and a handler
whose watch goes while it runs calls what has been freed. -/
example : outputs [.new 0 (.watch 1) true, .add 0 ⟨true, true, false⟩, .drop 0] =
      some [.answered 0 false, .fault] ∧
    outputs [.new 0 (.watch 1) true, .add 0 ⟨true, true, true⟩, .fire 0 evRead, .remove 0,
      .drop 0, .retry] = some [.answered 0 true, .told 0 1, .fault] := by
  decide +kernel

end Tlsdate.BusOwnership
