/-! Bounds within which the tools accept their inputs. -/
namespace NandTools.Limits

def sourceBytes : Nat := 10485760
def largeSourceBytes : Nat := 1048576
def sourceLines : Nat := 200000

def stringBytes : Nat := 65536
def identifierBytes : Nat := 255
def commentBytes : Nat := 1048576
def tokens : Nat := 2000000
def integer : Nat := 32767

def parseDepth : Nat := 1000

def symbolsPerScope : Nat := 4096
def subroutines : Nat := 1024

def variableBase : Nat := 16
def address : Nat := 32767
def romWords : Nat := 32768
def screen : Nat := 16384
def keyboard : Nat := 24576

def stackBase : Nat := 256
def tempBase : Nat := 5
def tempCells : Nat := 8
def vmCommands : Nat := 1000000

def batchThreads : Nat := 8
def batchFiles : Nat := 10000

def logBuffer : Nat := 10000
def logMessageBytes : Nat := 4096
def logEventsPerFile : Nat := 1000

end NandTools.Limits
