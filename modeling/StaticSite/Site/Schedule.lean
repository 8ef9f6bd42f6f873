import StaticSite.Site.Build

/-!
# Schedules

The workers of a pool take up pages and assets in some order. A `Schedule` is such an order for every number of
items; the results are given in the order of the items all the same.
-/

namespace StaticSite.Site

/-- For every number of items, the order in which they are taken up. -/
structure Schedule where
  order : Nat → List Nat
  isOrder : ∀ n, (order n).Perm (List.range n)

/-- The items from the first to the last. -/
def Schedule.forward : Schedule := ⟨List.range, fun _ => .refl _⟩

/-- The items from the last to the first. -/
def Schedule.backward : Schedule := ⟨fun n => (List.range n).reverse, fun n => List.reverse_perm (List.range n)⟩

/-- The items at several positions, with their positions. -/
def picked {α : Type} (order : List Nat) (as : List α) : List (Nat × α) :=
  order.filterMap fun i => as[i]?.map (i, ·)

/-- The steps of the items in the order of a schedule. -/
def Schedule.run {α β : Type} (σ : Schedule) : Runner α β := fun step t as =>
  let items := picked (σ.order as.length) as
  let (t, reports, results) := inTurn (fun t item => step t item.2) t items
  let results := (items.map Prod.fst).zip results
  (t, reports, (List.range as.length).filterMap (results.lookup ·))

/-- A build whose workers take up pages and assets in the order of schedules. -/
def buildIn (renders copies : Schedule) : Site → FileTree → List String → List Page → Step Result :=
  buildBy renders.run copies.run

end StaticSite.Site
