import URiscV.Spec.Redirect
import URiscV.Spec.IsaRefinement
import URiscV.Spec.StartUp
import URiscV.Spec.InFlight
import URiscV.Spec.ExStage
import URiscV.Spec.LoadStore
import URiscV.Spec.StallRedirect
import URiscV.Spec.Immediate
import URiscV.Spec.OneHot
import URiscV.Spec.CacheCoherence
import URiscV.Spec.CacheReset
import URiscV.Spec.CacheService
import URiscV.Spec.CacheLru
import URiscV.Spec.SetIndependence
import URiscV.Spec.WayCount
import URiscV.Spec.MonitorTrace
import URiscV.Spec.ScoreboardCorrect
import URiscV.Spec.CountClocks
import URiscV.Spec.DeltaArith
import URiscV.Spec.PassVerdict
import URiscV.ForStd.Hex
import URiscV.Spec.LostLines
import URiscV.Spec.IsaTrace
import URiscV.Asm.Programs
import URiscV.ForStd.InsertAt
import URiscV.Scripts.Assemble
import URiscV.Spec.Fibonacci
import URiscV.Spec.InsertionSort
import URiscV.Spec.ProgramLoad
import URiscV.Spec.TwoSum
import URiscV.ForStd.First
import URiscV.Spec.ResponseTime
import URiscV.Spec.RvReference
import URiscV.Spec.AsmVerdict
