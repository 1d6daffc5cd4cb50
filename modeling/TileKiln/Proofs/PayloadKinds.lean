import TileKiln.Proofs.DecodedCells
import TileKiln.Proofs.ParsedMap

namespace TileKiln

namespace TileData

def Matched (data : TileData) : Prop :=
  match data.encoding, data.payload with
  | none, .cells _ | some _, .text _ => True
  | none, .text _ | some _, .cells _ => False

variable {data : TileData} {width height : UInt32} {encoding : Encoding}

theorem cellsOf_text_ne_payloadMismatch {compression : Compression} {count : UInt64} {text : String}
    {asked : Encoding} (hasked : asked ≠ .inline) :
    cellsOf asked compression count (.text text) ≠ .error (.payloadMismatch encoding) := by
  intro h
  cases asked with
  | inline => exact absurd rfl hasked
  | csv =>
      obtain ⟨_, _, _, _, _, _, hbad⟩ := cellsOfFields_eq_error_iff.1 h
      cases hbad
  | base64 =>
      rcases cases_of_cellsOfBase64 h with ⟨hbad, _⟩ | hbad | hbad | ⟨_, hbad⟩
      · cases hbad
      · cases hbad
      · cases hbad
      · cases hbad

theorem Matched.cellsOf_ne_payloadMismatch (h : data.Matched) {asked : Encoding}
    (hasked : Encoding.ofTag data.encoding = .ok asked) (compression : Compression) (count : UInt64) :
    cellsOf asked compression count data.payload ≠ .error (.payloadMismatch encoding) := by
  rcases data with ⟨_ | tag, _, gids | text⟩
  · cases hasked
    exact fun hcells => nomatch hcells
  · exact h.elim
  · exact h.elim
  · apply cellsOf_text_ne_payloadMismatch
    rintro rfl
    rw [Encoding.ofTag.eq_def] at hasked
    split at hasked
    next htag => cases htag
    all_goals cases hasked

theorem Matched.decode_ne_payloadMismatch (h : data.Matched) :
    data.decode width height ≠ .error (.payloadMismatch encoding) := by
  intro hdecode
  rcases cases_of_decode hdecode with ⟨_, he⟩ | ⟨_, he⟩ | ⟨_, _, he⟩ | ⟨_, he⟩ |
    ⟨asked, compression, hasked, hcells⟩
  · cases he
  · cases he
  · cases he
  · cases he
  · exact h.cellsOf_ne_payloadMismatch hasked _ _ hcells

end TileData

namespace Layer

mutual

/-- The payloads of all tile layers, in groups at any depth, are of the kind that their tags ask
for. -/
def Matched : Layer → Prop
  | .tiles _ grid => grid.data.Matched
  | .image .. | .objects .. => True
  | .group _ members => AllMatched members

def AllMatched : List Layer → Prop
  | [] => True
  | l :: ls => l.Matched ∧ AllMatched ls

end

theorem allMatched_append {front back : List Layer} (hfront : AllMatched front)
    (hback : AllMatched back) : AllMatched (front ++ back) := by
  induction front with
  | nil => exact hback
  | cons l front ih => exact ⟨hfront.1, ih hfront.2⟩

theorem allMatched_toList {l : Option Layer} (h : ∀ l' ∈ l, l'.Matched) : AllMatched l.toList := by
  cases l with
  | none => trivial
  | some l => exact ⟨h l rfl, trivial⟩

end Layer

namespace Document

open Xml

variable {dir : String} {node : Node}

theorem matched_of_tileData {data : TileData} (h : tileData node = .ok data) : data.Matched := by
  obtain ⟨read, hpayload, h⟩ := ok_of_bind h
  cases h
  rw [payload] at hpayload
  cases hencoding : node.attribute? "encoding" with
  | some tag =>
      rw [hencoding] at hpayload
      cases hpayload
      trivial
  | none =>
      rw [hencoding] at hpayload
      simp only [Option.isSome_none, Bool.false_eq_true, if_false] at hpayload
      split at hpayload
      next => cases hpayload
      next =>
        obtain ⟨gids, _, hpayload⟩ := ok_of_bind hpayload
        cases hpayload
        trivial

theorem matched_of_tileGrid {grid : TileGrid} (h : tileGrid node = .ok grid) :
    grid.data.Matched := by
  obtain ⟨width, _, h⟩ := ok_of_bind h
  obtain ⟨height, _, h⟩ := ok_of_bind h
  split at h
  next =>
    obtain ⟨data, hdata, h⟩ := ok_of_bind h
    cases h
    exact matched_of_tileData hdata
  next =>
    cases h
    trivial

mutual

theorem matched_of_layer (dir : String) : (node : Node) → {l : Layer} →
    (h : layer dir node = .ok (some l)) → l.Matched
  | .text _, _, h | .aside, _, h => nomatch h
  | .element name attributes children, l, h => by
      rw [layer.eq_def] at h
      dsimp only at h
      split at h
      next =>
        obtain ⟨grid, hgrid, h⟩ := ok_of_bind h
        obtain ⟨head, _, h⟩ := ok_of_bind h
        cases h
        exact matched_of_tileGrid hgrid
      next =>
        obtain ⟨picture, _, h⟩ := ok_of_bind h
        obtain ⟨head, _, h⟩ := ok_of_bind h
        cases h
        trivial
      next =>
        obtain ⟨objects, _, h⟩ := ok_of_bind h
        obtain ⟨head, _, h⟩ := ok_of_bind h
        cases h
        trivial
      next =>
        obtain ⟨members, hmembers, h⟩ := ok_of_bind h
        obtain ⟨head, _, h⟩ := ok_of_bind h
        cases h
        exact matched_of_layers dir children hmembers
      next => cases h

theorem matched_of_layers (dir : String) : (nodes : List Node) → {ls : List Layer} →
    (h : layers dir nodes = .ok ls) → Layer.AllMatched ls
  | [], _, h => by
      rw [layers] at h
      cases h
      trivial
  | node :: nodes, _, h => by
      rw [layers] at h
      obtain ⟨first, hfirst, h⟩ := ok_of_bind h
      obtain ⟨others, hothers, h⟩ := ok_of_bind h
      cases h
      refine Layer.allMatched_append (Layer.allMatched_toList ?_) (matched_of_layers dir nodes hothers)
      rintro l rfl
      exact matched_of_layer dir node hfirst

end

theorem matched_of_mapPart {before after : Map} (h : mapPart dir before node = .ok after)
    (hbefore : Layer.AllMatched before.layers) : Layer.AllMatched after.layers := by
  rw [mapPart] at h
  split at h
  next =>
    obtain ⟨entry, _, h⟩ := ok_of_bind h
    cases h
    exact hbefore
  next =>
    obtain ⟨read, hread, h⟩ := ok_of_bind h
    cases h
    refine Layer.allMatched_append hbefore (Layer.allMatched_toList ?_)
    rintro l rfl
    exact matched_of_layer dir node hread

theorem matched_of_map {m : Map} (h : map dir node = .ok m) : Layer.AllMatched m.layers := by
  obtain ⟨bare, _, hnone, h⟩ := fold_of_map h
  refine foldlM_keeps (P := fun m => Layer.AllMatched m.layers) ?_ h ?_
  · intro before child after hpart hbefore
    exact matched_of_mapPart hpart hbefore
  · rw [hnone]
    trivial

end Document

theorem Map.matched_of_parse {document path : String} {map : Map}
    (h : Map.parse document path = .ok map) : Layer.AllMatched map.layers := by
  obtain ⟨root, _, h⟩ := ok_of_bind h
  exact Document.matched_of_map h

end TileKiln
