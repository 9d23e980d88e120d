import Eaf.Document.Interval
import Eaf.Json.Value
import Eaf.Text.Column

/-!
# Overviews of documents

## Main definitions

* `Eaf.TierOverview`, `Eaf.Overview` — the figures of a tier and of a document.
* `Eaf.Document.overview` — the overview of a document.
* `Eaf.Overview.lines` — an overview in lines of text.
* `Eaf.Overview.toJson` — an overview as a JSON value.
-/

namespace Eaf

/-- The figures of a tier. -/
structure TierOverview where
  id : String
  linguisticType : String
  parent : Option String
  /-- The number of aligned annotations. -/
  aligned : Nat
  /-- The number of annotations that refer to others. -/
  referring : Nat
  deriving DecidableEq, Repr

/-- The figures of a document. -/
structure Overview where
  media : Media
  /-- The number of time slots. -/
  slots : Nat
  /-- The number of time slots between which annotations extend. -/
  validSlots : Nat
  counters : Counters
  tiers : List TierOverview
  deriving DecidableEq, Repr

/-- The figures of a tier. -/
def Tier.overview (tier : Tier) : TierOverview :=
  { id := tier.id
    linguisticType := tier.linguisticType
    parent := tier.parent
    aligned := tier.notes.countP (·.isAligned)
    referring := tier.notes.countP (!·.isAligned) }

/-- The figures of a document. -/
def Document.overview (document : Document) : Overview :=
  { media := document.media
    slots := document.timeline.size
    validSlots := document.validSlots.length
    counters := document.counters
    tiers := document.tiers.map (·.overview) }

/-! ### As text -/

/-- The figures of a tier in a line. -/
def TierOverview.line (tier : TierOverview) : String :=
  s!"  {Text.column 24 tier.id} {Text.column 20 tier.linguisticType}" ++
    s!" aligned={Text.column 5 (toString tier.aligned)}" ++
    s!" ref={Text.column 5 (toString tier.referring)} parent=" ++ tier.parent.getD "-"

/-- The figures of a document in a file in lines. -/
def Overview.lines (overview : Overview) (file : String) : List String :=
  let counters := overview.counters
  [s!"File:        {file}",
   "Media URL:   " ++ overview.media.url.getD "-",
   "Media type:  " ++ overview.media.mimeType.getD "-",
   s!"Time slots:  {overview.slots} ({overview.validSlots} valid)",
   s!"Counters:    tier={counters.tier} an={counters.note} ts={counters.timeSlot}",
   "Tiers:"] ++ overview.tiers.map (·.line)

/-! ### As JSON -/

open Json (Value)

/-- The figures of a tier as a value. The parent is given only if there is one. -/
def TierOverview.toJson (tier : TierOverview) : Value :=
  .ofFields <|
    [("id", .ofString tier.id), ("linguistic_type_ref", .ofString tier.linguisticType)] ++
    (tier.parent.map fun parent => ("parent_ref", Value.ofString parent)).toList ++
    [("alignable_annotations", .ofNat tier.aligned),
     ("reference_annotations", .ofNat tier.referring)]

/-- The counters as a value. -/
def Counters.toJson (counters : Counters) : Value :=
  .ofFields
    [("last_used_tier_id", .ofNat counters.tier.toNat),
     ("last_used_annotation_id", .ofNat counters.note.toNat),
     ("last_used_time_slot_id", .ofNat counters.timeSlot.toNat)]

/-- An overview as a value. -/
def Overview.toJson (overview : Overview) : Value :=
  .ofFields
    [("media_url", .ofString? overview.media.url),
     ("media_type", .ofString? overview.media.mimeType),
     ("media_file", .ofString? overview.media.file),
     ("time_slots", .ofNat overview.slots),
     ("valid_time_slots", .ofNat overview.validSlots),
     ("counters", overview.counters.toJson),
     ("tiers", .list (overview.tiers.map (·.toJson)))]

end Eaf
