/-!
# Words for logging

How much is logged, and in what form.
-/

namespace Gatehouse.Logging

def levels : List String := ["trace", "debug", "info", "warn", "error"]

def formats : List String := ["text", "json"]

def isLevel (word : String) : Bool := levels.contains word

def isFormat (word : String) : Bool := formats.contains word

end Gatehouse.Logging
