/-!
The style properties that an element can carry, and the few of them that arrange its children.
-/

namespace DesignMarkup.Style

/-- The known style keys with their CSS properties, in the order in which they are written. -/
def properties : List (String × String) := [
  ("width", "width"),
  ("height", "height"),
  ("position", "position"),
  ("top", "top"),
  ("right", "right"),
  ("bottom", "bottom"),
  ("left", "left"),
  ("zIndex", "z-index"),
  ("display", "display"),
  ("flexDirection", "flex-direction"),
  ("flexWrap", "flex-wrap"),
  ("justifyContent", "justify-content"),
  ("alignItems", "align-items"),
  ("alignContent", "align-content"),
  ("alignSelf", "align-self"),
  ("flexGrow", "flex-grow"),
  ("flexShrink", "flex-shrink"),
  ("flexBasis", "flex-basis"),
  ("gap", "gap"),
  ("rowGap", "row-gap"),
  ("columnGap", "column-gap"),
  ("gridTemplateColumns", "grid-template-columns"),
  ("gridTemplateRows", "grid-template-rows"),
  ("boxSizing", "box-sizing"),
  ("margin", "margin"),
  ("marginTop", "margin-top"),
  ("marginRight", "margin-right"),
  ("marginBottom", "margin-bottom"),
  ("marginLeft", "margin-left"),
  ("padding", "padding"),
  ("paddingTop", "padding-top"),
  ("paddingRight", "padding-right"),
  ("paddingBottom", "padding-bottom"),
  ("paddingLeft", "padding-left"),
  ("background", "background"),
  ("backgroundColor", "background-color"),
  ("backgroundImage", "background-image"),
  ("backgroundClip", "background-clip"),
  ("webkitBackgroundClip", "-webkit-background-clip"),
  ("color", "color"),
  ("webkitTextFillColor", "-webkit-text-fill-color"),
  ("fontFamily", "font-family"),
  ("fontSize", "font-size"),
  ("fontWeight", "font-weight"),
  ("fontStyle", "font-style"),
  ("lineHeight", "line-height"),
  ("letterSpacing", "letter-spacing"),
  ("textAlign", "text-align"),
  ("textDecoration", "text-decoration"),
  ("textTransform", "text-transform"),
  ("direction", "direction"),
  ("whiteSpace", "white-space"),
  ("overflowWrap", "overflow-wrap"),
  ("border", "border"),
  ("borderRadius", "border-radius"),
  ("boxShadow", "box-shadow"),
  ("opacity", "opacity"),
  ("visibility", "visibility"),
  ("overflow", "overflow"),
  ("transform", "transform"),
  ("filter", "filter"),
  ("mixBlendMode", "mix-blend-mode")]

/-- The known style keys in their order. -/
def keys : List String :=
  properties.map Prod.fst

/-- The style keys by which a container arranges its children, in the order of a layout. -/
def layoutKeys : List String :=
  ["display", "flexDirection", "justifyContent", "alignItems", "gap", "gridTemplateColumns",
    "gridTemplateRows"]

/-- The place of a key among the known ones. -/
def index? (key : String) : Option Nat :=
  keys.idxOf? key

/-- The CSS property of a known key. -/
def property? (key : String) : Option String :=
  properties.lookup key

theorem keys_nodup : keys.Nodup := by
  decide

theorem layoutKeys_nodup : layoutKeys.Nodup := by
  decide

theorem layoutKeys_subset_keys : layoutKeys ⊆ keys := by
  decide

end DesignMarkup.Style
