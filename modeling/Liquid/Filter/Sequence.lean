import Liquid.Filter
import Liquid.Text.Case
import Liquid.Text.Search
import Liquid.Value.Item
import Liquid.Value.Order

/-!
# Filters for Arrays

Filters on the items of a value. A range stands for its integers, nil for no
items, and any other value that is no array for a single item. Where a filter
takes a property, it goes by what stands under that in each item, and by the
items themselves if the property is missing.

Both sorts are stable and put what has no key last. They differ in the order
of keys: that of values, or that of texts without regard to case.

To have no key is to have the one nil of the language for a key. A host can make
another nil, which is equal to that one and yet a key like any other. Which of
the two a nil is does not show in a value, so it is told apart from it. All nils
that the language makes, and those of data, are its own.

## Main definitions

* `Filter.keyed`: Each item with its key.
* `Filter.Entry`: An item with its key, which may be a nil of a host.
* `Filter.sortedBy`: The items in the order of their keys.
* `Filter.firstOfEach`: The first item of each set of equal keys.
* `Filter.isMatch`: Whether an item has a property.
* `Filter.sequenceFilters`: The filters.
-/

namespace Liquid

namespace Filter

/-- A result that may crash, as the result of a filter. -/
def crashing {α : Type} (result : Except Crash α) : Except FilterFailure α :=
  result.mapError .crashed

/-- The items that a filter works on. -/
def itemsOf (v : Value) : Except FilterFailure (List Value) :=
  crashing v.elements

/-- What stands under a property of an item; the item itself if there is no property. -/
def keyOf (property : Option Value) (item : Value) : Except Crash Value :=
  match property with
  | none => .ok item
  | some property => item.item (.ofValue property)

/-- Each item with its key before it. -/
def keyed (property : Option Value) (v : Value) : Except FilterFailure (List (Value × Value)) := do
  (← itemsOf v).mapM fun item => do .ok (← crashing (keyOf property item), item)

/-- An item with its key, and whether its key is the nil of the language if it is nil. -/
structure Entry where
  own : Bool
  key : Value
  item : Value

/-- Whether the item has no key. -/
def Entry.absent (entry : Entry) : Bool :=
  entry.own && entry.key.isNil

/-- The key of the item, if it has one. -/
def Entry.present? (entry : Entry) : Option Value :=
  if entry.absent then none else some entry.key

/-- The items with their keys, where it is told for each index whether the key there is the nil of
the language if it is nil. -/
def entriesOf (own : Nat → Bool) (property : Option Value) (v : Value) :
    Except FilterFailure (List Entry) := do
  .ok ((← keyed property v).mapIdx fun index entry => ⟨own index, entry.1, entry.2⟩)

/-- All nils are the one of the language. -/
def allOwn : Nat → Bool :=
  fun _ => true

/-- Items in the order of their keys, equal ones as they came, and those without a key last. -/
def sortedBy {κ : Type} (key? : Entry → Option κ) (le : κ → κ → Bool) (entries : List Entry) :
    List Value :=
  (entries.mergeSort fun a b =>
    match key? a, key? b with
    | some k, some l => le k l
    | some _, none => true
    | none, some _ => false
    -- Two without a key stay as they came.
    | none, none => true).map Entry.item

/-- The items in the order of values. -/
def sort (own : Nat → Bool) (v : Value) (property : Option Value) : Except FilterFailure Value := do
  .ok (.array (sortedBy Entry.present? (fun k l => (k.compare l).isLE)
    (← entriesOf own property v)))

/-- The text by which values compare without regard to case. -/
def foldedText (v : Value) : String :=
  Text.onChars Text.fold v.display

/-- The items in the order of their texts without regard to case. -/
def sortNatural (own : Nat → Bool) (v : Value) (property : Option Value) :
    Except FilterFailure Value := do
  .ok (.array (sortedBy (fun entry => entry.present?.map foldedText)
    (fun k l => (Ord.compare k l).isLE) (← entriesOf own property v)))

/-- The items whose key equals none of those seen and none of an item before. -/
def firstOfEach (seen : List Value) : List (Value × Value) → List Value
  | [] => []
  | (key, item) :: entries =>
    if seen.any key.equals then firstOfEach seen entries
    else item :: firstOfEach (key :: seen) entries

/-- The first item for each key. -/
def uniq (v : Value) (property : Option Value) : Except FilterFailure Value := do
  .ok (.array (firstOfEach [] (← keyed property v)))

/-- The items that have a key. -/
def compact (own : Nat → Bool) (v : Value) (property : Option Value) :
    Except FilterFailure Value := do
  .ok (.array (((← entriesOf own property v).filter fun entry => !entry.absent).map Entry.item))

/-- The texts of the items with a separator between them. -/
def join (v : Value) (separator : Option Value) : Except FilterFailure Value := do
  let items ← itemsOf v
  .ok (.string (((separator.map Value.display).getD " ").intercalate (items.map Value.display)))

/-- The first item. -/
def first (v : Value) : Except FilterFailure Value := do
  .ok ((← itemsOf v).head?.getD .nil)

/-- The last item. -/
def last (v : Value) : Except FilterFailure Value := do
  .ok ((← itemsOf v).getLast?.getD .nil)

/-- The items, or the characters of a text, from the last to the first. -/
def reverse : Value → Except FilterFailure Value
  | .string s => .ok (.string (Text.onChars List.reverse s))
  | v => do .ok (.array (← itemsOf v).reverse)

/-- The items of both values. -/
def concat (v w : Value) : Except FilterFailure Value := do
  .ok (.array ((← itemsOf v) ++ (← itemsOf w)))

/-- What stands under a property of each item. -/
def mapProperty (v property : Value) : Except FilterFailure Value := do
  .ok (.array ((← keyed (some property) v).map Prod.fst))

/-- Whether an item has the property: equal to the target, or true if there is no target. -/
def isMatch (property : Value) (target : Option Value) (item : Value) : Except Crash Bool := do
  let found ← item.item (.ofValue property)
  match target with
  | none => .ok found.isTruthy
  | some target => .ok (found.equals target)

/-- The items that have the property, or that do not. -/
def select (wanted : Bool) (v property : Value) (target : Option Value) :
    Except FilterFailure Value := do
  let items ← itemsOf v
  .ok (.array (← items.filterM fun item => do
    .ok ((← crashing (isMatch property target item)) == wanted)))

/-- The first item that has the property and its index, where `index` items came before. -/
def findFrom (property : Value) (target : Option Value) (index : Nat) :
    List Value → Except Crash (Option (Nat × Value))
  | [] => .ok none
  | item :: items => do
    if ← isMatch property target item then .ok (some (index, item))
    else findFrom property target (index + 1) items

/-- The first item that has the property. -/
def find (v property : Value) (target : Option Value) : Except FilterFailure Value := do
  match ← crashing (findFrom property target 0 (← itemsOf v)) with
  | some (_, item) => .ok item
  | none => .ok .nil

/-- The index of the first item that has the property. -/
def findIndex (v property : Value) (target : Option Value) : Except FilterFailure Value := do
  match ← crashing (findFrom property target 0 (← itemsOf v)) with
  | some (index, _) => .ok (.integer index)
  | none => .ok .nil

/-- The filters for arrays. -/
def sequenceFilters : List Filter :=
  [ofOptional "join" join, ofUnary "first" first, ofUnary "last" last, ofUnary "reverse" reverse,
    ofOptional "sort" (sort allOwn), ofOptional "sort_natural" (sortNatural allOwn),
    ofOptional "uniq" uniq, ofOptional "compact" (compact allOwn), ofBinary "concat" concat,
    ofBinary "map" mapProperty, ofTernary "where" (select true), ofTernary "reject" (select false),
    ofTernary "find" find, ofTernary "find_index" findIndex]

end Filter

end Liquid
