import Liquid.Tag.Branching
import Liquid.Tag.Iteration
import Liquid.Tag.Writing

/-!
# The Tags of the Language

All tags that a template may use without the host adding any. Their order
counts in one place: an end or branch tag on its own is reported as belonging
to the first tag that knows it.

Raw blocks and comments are no tags in this sense, for they are gone before
tokens are arranged.

## Main definitions

* `Tag.standard`: The tags.
-/

namespace Liquid

namespace Tag

/-- The tags of the language. -/
def standard : List Tag :=
  [ifTag, unlessTag, caseTag, forTag, tablerowTag, breakTag, continueTag, cycleTag, assignTag,
    captureTag, incrementTag, decrementTag, echoTag]

end Tag

end Liquid
