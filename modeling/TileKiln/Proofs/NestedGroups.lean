import TileKiln.Proofs.AssemblyStages
import TileKiln.Proofs.ParsedMap
import TileKiln.Proofs.StreamLimits

namespace TileKiln

theorem Xml.tokens?_of_token? {c : Char} {cs rest : List Char} {token : Token}
    (h : token? c cs = some (token, rest)) :
    tokens? (c :: cs) = (tokens? rest).map (token :: ·) := by
  rw [tokens?]
  split
  next h' =>
    rw [h] at h'
    cases h'
    rfl
  next h' =>
    rw [h] at h'
    cases h'

namespace NestedGroups

open Xml

variable {σ : Type}

def groups : (depth : Nat) → String
  | 0 => ""
  | depth + 1 => "<group>" ++ groups depth ++ "</group>"

def nested (depth : Nat) : String := "<map>" ++ groups depth ++ "</map>"

def tag (name : String) : QName := ⟨"", name⟩

def tokens : (depth : Nat) → List Token
  | 0 => []
  | depth + 1 => .opening (tag "group") [] false :: (tokens depth ++ [.closing (tag "group")])

def nodes : (depth : Nat) → List Node
  | 0 => []
  | depth + 1 => [.element "group" [] (nodes depth)]

def layers : (depth : Nat) → List Layer
  | 0 => []
  | depth + 1 => [.group {} (layers depth)]

def map (depth : Nat) : Map where
  layers := layers depth

theorem attributes_end (rest : List Char) : attributes? ('>' :: rest) = some ([], false, rest) := by
  rw [attributes?]
  rfl

theorem tokens_groups (depth : Nat) (rest : List Char) :
    tokens? ((groups depth).toList ++ rest) = (tokens? rest).map (tokens depth ++ ·) := by
  induction depth generalizing rest with
  | zero => simp [groups, tokens]
  | succ depth ih =>
      have hopening : ∀ cs, token? '<' ("group>".toList ++ cs) =
          some (.opening (tag "group") [] false, cs) := by
        intro cs
        change (attributes? ('>' :: cs)).map _ = _
        rw [attributes_end]
        rfl
      have hclosing : token? '<' ("/group>".toList ++ rest) =
          some (.closing (tag "group"), rest) := rfl
      have hsplit : (groups (depth + 1)).toList ++ rest =
          '<' :: ("group>".toList ++ ((groups depth).toList ++ '<' :: ("/group>".toList ++ rest))) := by
        simp [groups]
      rw [hsplit, tokens?_of_token? (hopening _), ih, tokens?_of_token? hclosing]
      cases tokens? rest <;> simp [tokens]

/-- A group is closed as the only child that it adds to the element around it. -/
theorem rootOf_groups (depth : Nat) (e : OpenElement) (outer : List OpenElement) (root : Option Node)
    (rest : List Token) :
    rootOf? (e :: outer) root (tokens depth ++ rest) =
      rootOf? ({ e with children := nodes depth ++ e.children } :: outer) root rest := by
  induction depth generalizing e outer rest with
  | zero => rfl
  | succ depth ih =>
      let inner : OpenElement := ⟨tag "group", [], e.scope, []⟩
      have hopen : rootOf? (e :: outer) root (tokens (depth + 1) ++ rest) =
          rootOf? (inner :: e :: outer) root (tokens depth ++ .closing (tag "group") :: rest) := by
        rw [tokens, List.cons_append, List.append_assoc]
        rfl
      have hclose : ({ inner with children := nodes depth ++ inner.children } : OpenElement).close =
          .element "group" [] (nodes depth) := by
        cases depth <;> rfl
      rw [hopen, ih, rootOf?, if_pos (beq_self_eq_true _), OpenElement.add, hclose]
      rfl

theorem parse_nested (depth : Nat) :
    parse? (nested depth) = some (.element "map" [] (nodes depth)) := by
  have hsplit : (nested depth).toList =
      '<' :: ("map>".toList ++ ((groups depth).toList ++ '<' :: ("/map>".toList ++ []))) := by
    simp [nested]
  have hopening : ∀ cs, token? '<' ("map>".toList ++ cs) =
      some (.opening (tag "map") [] false, cs) := by
    intro cs
    change (attributes? ('>' :: cs)).map _ = _
    rw [attributes_end]
    rfl
  have hclosing : token? '<' ("/map>".toList ++ []) = some (.closing (tag "map"), []) := rfl
  have htokens : tokens? (nested depth).toList =
      some (.opening (tag "map") [] false :: (tokens depth ++ [.closing (tag "map")])) := by
    rw [hsplit, tokens?_of_token? (hopening _), tokens_groups, tokens?_of_token? hclosing, tokens?]
    rfl
  refine parse?_of_tokens ?_ ?_ htokens ?_
  · rw [hsplit]
    change some '<' ≠ some '\uFEFF'
    decide
  · rw [hsplit]
    rfl
  · change rootOf? [⟨tag "map", [], [], []⟩] none (tokens depth ++ [.closing (tag "map")]) = _
    rw [rootOf_groups]
    cases depth <;> rfl

theorem properties_nodes (dir : String) (depth : Nat) :
    Document.propertiesAmong dir (nodes depth) = [] := by
  cases depth <;> rfl

theorem layer_node (dir : String) {depth : Nat}
    (h : Document.layers dir (nodes depth) = .ok (layers depth)) :
    Document.layer dir (.element "group" [] (nodes depth)) =
      .ok (some (.group {} (layers depth))) := by
  have hhead : Document.layerHead dir (.element "group" [] (nodes depth)) = .ok {} := by
    change Except.ok _ = _
    rw [Document.properties, Node.children, properties_nodes]
    rfl
  rw [Document.layer]
  simp only [h, hhead]
  rfl

theorem layers_nodes (dir : String) (depth : Nat) :
    Document.layers dir (nodes depth) = .ok (layers depth) := by
  induction depth with
  | zero => rfl
  | succ depth ih =>
      rw [nodes, Document.layers, layer_node dir ih]
      rfl

theorem parse_map (depth : Nat) : Map.parse (nested depth) "level.tmx" = .ok (map depth) := by
  have hroot : Document.root "map" (nested depth) = .ok (.element "map" [] (nodes depth)) := by
    rw [Document.root, parse_nested]
    rfl
  have hmap : Map.parse (nested depth) "level.tmx" =
      Document.map (Path.parent "level.tmx") (.element "map" [] (nodes depth)) := by
    rw [Map.parse, hroot]
    rfl
  rw [hmap]
  cases depth with
  | zero => rfl
  | succ depth =>
      have hpart : Document.mapPart (Path.parent "level.tmx") {}
          (.element "group" [] (nodes depth)) = .ok (map (depth + 1)) := by
        change (Document.layer _ _ >>= fun l => _) = _
        rw [layer_node _ (layers_nodes _ depth)]
        rfl
      change (Document.mapPart _ {} _ >>= fun m => Except.ok m) = _
      rw [hpart]
      rfl

theorem layers_assemble (host : Host σ) (around : Surroundings) (depth : Nat) :
    Assembly.layers host around (layers depth) = Work.done (layers depth) := by
  induction depth with
  | zero => rfl
  | succ depth ih =>
      rw [layers, Assembly.layers, Assembly.layer, ih]
      rfl

def assembled (depth : Nat) : Map where
  background := some .black
  layers := layers depth

theorem assemble_map (host : Host σ) (depth : Nat) :
    (map depth).assemble host {} = Work.done (assembled depth) := by
  have hchecked : (map depth).checkGids true = .ok () := by
    change Tileset.checkNeighbours ([].mergeSort _) = .ok ()
    rw [List.mergeSort_nil]
    rfl
  have hsettled : Assembly.settle (σ := σ) {} (map depth) = Work.done (assembled depth) :=
    Assembly.settle_of_checked hchecked
  funext s
  rw [Map.assemble]
  change ((Assembly.settle {} (map depth)).andThen _) s = _
  rw [hsettled]
  change Assembly.allLayers host (assembled depth) s = _
  rw [Assembly.allLayers, assembled, layers_assemble]
  rfl

theorem layers_fit (depth : Nat) :
    FitsWord (layers depth).length ∧ Layer.AllFit (layers depth) := by
  have hnone : FitsWord 0 := by decide
  induction depth with
  | zero => exact ⟨hnone, trivial⟩
  | succ depth ih =>
      have hone : FitsWord 1 := by decide
      exact ⟨hone, ⟨⟨hnone, hnone, trivial⟩, ih⟩, trivial⟩

theorem assembled_fits (depth : Nat) : (assembled depth).Fits := by
  have hnone : FitsWord 0 := by decide
  exact ⟨⟨hnone, trivial⟩, hnone, fun _ ht => absurd ht List.not_mem_nil, (layers_fit depth).1,
    (layers_fit depth).2⟩

theorem layers_shallow_iff (outer depth : Nat) :
    Layer.AllShallow outer (layers depth) ↔ depth = 0 ∨ outer + depth ≤ Baked.maxNesting := by
  induction depth generalizing outer with
  | zero => simp [layers, Layer.AllShallow]
  | succ depth ih =>
      simp only [layers, Layer.AllShallow, Layer.Shallow, LayerHead.Shallow,
        Property.listHeight, ih, and_true]
      omega

theorem assembled_shallow_iff (depth : Nat) : (assembled depth).Shallow ↔ depth ≤ Baked.maxNesting := by
  constructor
  · intro h
    rcases (layers_shallow_iff 0 depth).1 h.layers with rfl | hdepth
    · exact Nat.zero_le _
    · omega
  · intro hdepth
    exact ⟨Nat.zero_le _, fun _ ht => absurd ht List.not_mem_nil,
      (layers_shallow_iff 0 depth).2 (.inr (by omega))⟩

end NestedGroups

end TileKiln
