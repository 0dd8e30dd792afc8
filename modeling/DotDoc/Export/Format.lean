import DotDoc.Error

/-!
# Output formats

Which formats there are is up to the renderer, and how a format reads in lower case to the letters
that are known.  A format is looked up in lower case, and the format of the source itself is
refused, because its output would be the source file.

`Renderer.installed` has the formats of the renderer that is installed.  The Kelvin sign is a
letter whose lower case is the ASCII one, and no other character beyond ASCII becomes part of the
name of one of them.
-/

set_option autoImplicit false

namespace DotDoc

/-- The names of the formats of a renderer, and the lower case in which a format is looked up. -/
structure Renderer where
  formats : List String
  lower : String → String

def sourceFormat : String := "dot"

def defaultFormat : String := "png"

namespace Renderer

def formatNamed (r : Renderer) : Value → Except Error String
  | .str format =>
      let name := r.lower format
      if !r.formats.contains name then .error (.unknownFormat (.str format))
      else if name = sourceFormat then .error (.overwritesSource (.str format))
      else .ok name
  | .bytes format => .error (.unknownFormat (.bytes format))
  | _ => .error .missingMember

def lowerChar (c : Char) : Char :=
  if 'A' ≤ c && c ≤ 'Z' then Char.ofNat (c.toNat + 32)
  else if c = '\u212a' then 'k'
  else c

def installed : Renderer where
  formats :=
    ["bmp", "canon", "cgimage", "cmap", "cmapx", "cmapx_np", "dot", "dot_json", "eps", "exr", "fig",
     "gd", "gd2", "gif", "gtk", "gv", "ico", "imap", "imap_np", "ismap", "jp2", "jpe", "jpeg",
     "jpg", "json", "json0", "pct", "pdf", "pic", "pict", "plain", "plain-ext", "png", "pov", "ps",
     "ps2", "psd", "sgi", "svg", "svg_inline", "svgz", "tga", "tif", "tiff", "tk", "vml", "vmlz",
     "vrml", "wbmp", "webp", "x11", "xdot", "xdot1.2", "xdot1.4", "xdot_json", "xlib"]
  lower format := String.ofList (format.toList.map lowerChar)

end Renderer
end DotDoc
